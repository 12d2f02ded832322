/-
Scadium.Affiliates.Service — the referral rows and their three writers
(`affiliates/affiliates.service.ts`, `custody/deposit.service.ts`).

A settle adds a referee's stake and the referrer's commission to the row of
the referee. A claim pays what has not been claimed of a referrer's rows; a
first deposit forfeits it. The last two are Serializable transactions: they
read a snapshot, and they abort at their commit if a row they write has
changed since. A first deposit also aborts if a Serializable settle has
written a row of the account since, since each read what the other wrote. A
settle of a coin flip is a plain transaction and aborts nobody; it locks the
row of the referrer, so it is one step.

The cut of a wager (`referralCommission`, at the tier of the referred volume)
and other balance movements are answers of the environment. `forfeited`,
`playEra` and `paidLate` record what has happened; no statement reads them.
-/
import Scadium.Lib.Calls
import Scadium.Prisma.Schema

namespace Scadium.Affiliates

open Scadium.Lib Scadium.Prisma

structure Account where
  referredById : Option UserId
  signupIpHash : Option String
  fundedAt : Option Time
  playBalanceLamports : Nat
  /-- how often the row was written -/
  version : Nat
  deriving DecidableEq

/-- A row of `Referral`, less its key `refereeId`. -/
structure Row where
  referrerId : UserId
  volumeLamports : Nat
  commissionLamports : Nat
  commissionClaimedLamports : Nat
  flagged : Bool
  deriving DecidableEq

/-- A ledger row with reason `affiliate_commission`. -/
structure Credit where
  userId : UserId
  delta : Nat
  deriving DecidableEq

structure State where
  users : Table UserId Account
  /-- by referee -/
  referrals : Table UserId Row
  ledger : List Credit
  /-- the referrers whose rows the Serializable settles wrote -/
  settled : List UserId
  /-- what conversions forfeited -/
  forfeited : List Credit
  /-- what a conversion has left unclaimed of the row, until it is claimed -/
  playEra : UserId → Nat
  /-- what was credited of that -/
  paidLate : Nat

/-- What the environment answers in a step. -/
structure Answer where
  now : Time
  /-- `economyEnforced()` -/
  enforced : Bool
  /-- `referralCommission` of the wager -/
  commission : Nat
  /-- the transaction fails -/
  failed : Bool

/-- What a call has still to do. -/
inductive Call where
  | register (userId : UserId) (referredById : Option UserId) (signupIpHash : Option String)
  /-- the settle that calls it is Serializable or plain -/
  | creditReferral (refereeId : UserId) (stakeLamports : Nat) (serializable : Bool)
  | claim (userId : UserId)
  | claimCommit (userId : UserId) (user : Account) (toAdvance : List (UserId × Row))
  /-- a first deposit -/
  | convert (userId : UserId)
  | convertCommit (userId : UserId) (user : Account) (settled : Nat) (unclaimed : List (UserId × Row))
  /-- another balance movement -/
  | setBalance (userId : UserId) (playBalanceLamports : Nat)
  deriving DecidableEq

/-- What can still be claimed of the row. -/
def Row.unclaimed (r : Row) : Nat := r.commissionLamports - r.commissionClaimedLamports

/-- `commissionClaimedLamports = commissionLamports` -/
def Row.advance (r : Row) : Row := { r with commissionClaimedLamports := r.commissionLamports }

/-- One update per row. -/
def advanceAll (t : Table UserId Row) : List (UserId × Row) → Table UserId Row
  | [] => t
  | (refereeId, r) :: rows => advanceAll (t.set refereeId r.advance) rows

def Account.write (user : Account) (playBalanceLamports : Nat) : Account :=
  { user with playBalanceLamports := playBalanceLamports, version := user.version + 1 }

namespace State

variable (a : State)

/-- `sharesEconomy` -/
def sharesEconomy (referrerId refereeId : UserId) (enforced : Bool) : Bool :=
  !enforced || (a.users.get referrerId).any (fun user => user.fundedAt.isSome) ==
    (a.users.get refereeId).any (fun user => user.fundedAt.isSome)

/-- `sameIp` -/
def sameIp (referrerId : UserId) (referee : Account) : Bool :=
  referee.signupIpHash.isSome &&
    referee.signupIpHash == (a.users.get referrerId).bind (·.signupIpHash)

/-- `referral.upsert` -/
def upsertReferral (refereeId referrerId : UserId) (stakeLamports commission : Nat)
    (sameIp : Bool) : Table UserId Row :=
  a.referrals.set refereeId <|
    match a.referrals.get refereeId with
    | none => ⟨referrerId, stakeLamports, commission, 0, sameIp⟩
    | some r =>
        { r with
          volumeLamports := r.volumeLamports + stakeLamports
          commissionLamports := r.commissionLamports + commission
          flagged := r.flagged || sameIp }

def creditReferral (answer : Answer) (refereeId : UserId) (stakeLamports : Nat)
    (serializable : Bool) : State :=
  match a.users.get refereeId with
  | none => a
  | some referee =>
      match referee.referredById with
      | none => a
      | some referrerId =>
          if stakeLamports = 0 then a
          else
            let sameIp := a.sameIp referrerId referee
            let earns := !sameIp && a.sharesEconomy referrerId refereeId answer.enforced
            let commission := if earns then answer.commission else 0
            { a with
              referrals := a.upsertReferral refereeId referrerId stakeLamports commission sameIp
              settled := if serializable then referrerId :: a.settled else a.settled }

/-- The rows of the referrer that something can be claimed of. -/
def unclaimedRows (userId : UserId) (flaggedToo : Bool) : List (UserId × Row) :=
  (a.referrals.filter fun _ r => r.referrerId == userId && (flaggedToo || !r.flagged) &&
    decide (r.commissionClaimedLamports < r.commissionLamports)).entries

/-- None of the rows has changed. -/
def unchanged (userId : UserId) (user : Account) (rows : List (UserId × Row)) : Bool :=
  decide (a.users.get userId = some user) && rows.all fun p => a.referrals.get p.1 == some p.2

/-- The settles that wrote a row of the referrer. -/
def settlesOf (userId : UserId) : Nat := a.settled.count userId

/-- The commit of `claim`. -/
def claimCommit (userId : UserId) (user : Account) (toAdvance : List (UserId × Row)) : State :=
  let claimable := weight (fun p => p.2.unclaimed) toAdvance
  { a with
    referrals := advanceAll a.referrals toAdvance
    users := a.users.set userId (user.write (user.playBalanceLamports + claimable))
    ledger := ⟨userId, claimable⟩ :: a.ledger
    playEra := fun refereeId => if refereeId ∈ toAdvance.map Prod.fst then 0 else a.playEra refereeId
    paidLate := a.paidLate + weight (fun p => a.playEra p.1) toAdvance }

/-- The commit of `convert`. -/
def convertCommit (now : Time) (userId : UserId) (user : Account)
    (unclaimed : List (UserId × Row)) : State :=
  let referrals := advanceAll a.referrals unclaimed
  { a with
    referrals := referrals
    users := a.users.set userId { user.write 0 with fundedAt := some now }
    forfeited := ⟨userId, weight (fun p => p.2.unclaimed) unclaimed⟩ :: a.forfeited
    playEra := fun refereeId =>
      match referrals.get refereeId with
      | none => a.playEra refereeId
      | some r => if r.referrerId = userId then r.unclaimed else a.playEra refereeId }

end State

/-- One step of a call. -/
def Call.step (a : State) (answer : Answer) : Call → State × Option Call
  | .register userId referredById signupIpHash =>
      match a.users.get userId with
      | some _ => (a, none)
      | none =>
        ({ a with users := a.users.set userId ⟨referredById, signupIpHash, none, 0, 0⟩ }, none)
  | .creditReferral refereeId stakeLamports serializable =>
      (a.creditReferral answer refereeId stakeLamports serializable, none)
  | .claim userId =>
      match a.users.get userId with
      | none => (a, none)
      | some user =>
          let toAdvance := a.unclaimedRows userId false
          if weight (fun p => p.2.unclaimed) toAdvance = 0 then (a, none)
          else (a, some (.claimCommit userId user toAdvance))
  | .claimCommit userId user toAdvance =>
      if answer.failed ∨ !a.unchanged userId user toAdvance then (a, none)
      else (a.claimCommit userId user toAdvance, none)
  | .convert userId =>
      match a.users.get userId with
      | none => (a, none)
      | some user =>
          if user.fundedAt.isSome then (a, none)
          else
            (a, some (.convertCommit userId user (a.settlesOf userId) (a.unclaimedRows userId true)))
  | .convertCommit userId user settled unclaimed =>
      if answer.failed ∨ !a.unchanged userId user unclaimed ∨ a.settlesOf userId ≠ settled then
        (a, none)
      else (a.convertCommit answer.now userId user unclaimed, none)
  | .setBalance userId playBalanceLamports =>
      match a.users.get userId with
      | none => (a, none)
      | some user =>
          ({ a with users := a.users.set userId (user.write playBalanceLamports) }, none)

/-- A call may begin so. -/
def Call.isEntry : Call → Bool
  | .claimCommit .. | .convertCommit .. => false
  | .register .. | .creditReferral .. | .claim .. | .convert .. | .setBalance .. => true

def service : Calls.Service State Call Answer where
  begins _ call := call.isEntry
  step a answer call := some (call.step a answer)

/-- No account and no row. -/
def State.initial : State := ⟨.empty, .empty, [], [], [], fun _ => 0, 0⟩

end Scadium.Affiliates
