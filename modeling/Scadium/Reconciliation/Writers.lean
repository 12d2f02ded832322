/-
Scadium.Reconciliation.Writers — the transactions that write what the
checks compare.

Every settlement, movement, stake and vault transaction is the list of its
statements (`script`), in the order of the source; outcomes and payouts are
the environment's. The others write a column of `User` directly: accounts,
demo bots, and the reserves of the reward claims
(`apps/api/src/rewards/rewards.service.ts`).

The leaderboard and referral hooks of a settlement write nothing that is
compared, and mint nothing.
-/
import Scadium.Games.Coinflip.Service
import Scadium.Games.Lottery.Settle
import Scadium.Reconciliation.Books

namespace Scadium.Shared

/-- 1 SCAD -/
def ENGINE.MIN_STAKE_SCAD_BASE : Nat := 1000000000

end Scadium.Shared

namespace Scadium.Reconciliation

open Scadium.Lib Scadium.Prisma Scadium.Prisma.Committed Scadium.Shared
open Scadium.Games.Coinflip (winnerPayout)
open Scadium.Games.Lottery (TicketResult UserAgg perUser)
open Scadium.Vault (VaultPool VaultPosition PoolId PositionId Credit creditPools)

/-! ## Settlements -/

/-- `if (payout > 0n)` -/
def credit (userId : UserId) (payout : Nat) : List Stmt :=
  if 0 < payout then [.move userId payout .jeton none] else []

/-- The aggregates of a settled bet. -/
def recordBet (userId : UserId) (stake payout : Nat) : List Stmt :=
  let netProfit : Int := (payout : Int) - stake
  [.record userId stake (max netProfit 0) (max (-netProfit) 0) 1 (some netProfit)]

/-- An instant bet: stake, payout and bet in one transaction. -/
def settleInstantBet (userId : UserId) (amountLamports payoutLamports : Nat) : List Stmt :=
  [.move userId (-amountLamports) .jeton none] ++ credit userId payoutLamports ++
    recordBet userId amountLamports payoutLamports ++
    [.createBet ⟨userId, amountLamports, payoutLamports⟩]

/-- The last move of a stateful round; the stake was debited at its start. -/
def settleStatefulRound (userId : UserId) (stakeLamports payoutLamports : Nat) : List Stmt :=
  credit userId payoutLamports ++ recordBet userId stakeLamports payoutLamports ++
    [.createBet ⟨userId, stakeLamports, payoutLamports⟩]

/-- A bet of a shared round or a seat at a table. -/
structure Result where
  userId : UserId
  stake : Nat
  payout : Nat

/-- One bet of a shared settlement. -/
def settleResult (r : Result) : List Stmt :=
  recordBet r.userId r.stake r.payout ++ credit r.userId r.payout ++
    [.createBet ⟨r.userId, r.stake, r.payout⟩]

/-- Crash, `settleOnce`. -/
def settleCrash (bets : List Result) : List Stmt := bets.flatMap settleResult

/-- Blackjack, phase 2 of the settlement. -/
def settleBlackjack (seats : List Result) : List Stmt := seats.flatMap settleResult

/-- A bet of a stranded crash round: locked-in cashouts, and the stake still riding. -/
structure StrandedBet where
  userId : UserId
  amountLamports : Nat
  payoutLamports : Nat
  remainingLamports : Nat

def recoverBet (b : StrandedBet) : List Stmt :=
  let paid := b.payoutLamports + b.remainingLamports
  credit b.userId paid ++ recordBet b.userId b.amountLamports paid ++
    [.createBet ⟨b.userId, b.amountLamports, paid⟩]

/-- Crash, `recoverStrandedRounds`. -/
def recoverCrash (bets : List StrandedBet) : List Stmt := bets.flatMap recoverBet

/-- Contributions by user. -/
def byUser (entries : List (UserId × Nat)) : List (UserId × Nat) :=
  groupBy Prod.fst (fun cur e => cur.getD 0 + e.2) entries

/-- Jackpot: one bet per player, whatever the number of entries. -/
def settleJackpot (entries : List (UserId × Nat)) (winner : UserId) (payout : Nat) : List Stmt :=
  (byUser entries).flatMap fun p => settleResult ⟨p.1, p.2, if p.1 = winner then payout else 0⟩

/-- The aggregates of one user's tickets. -/
def recordUser (p : UserId × UserAgg) : Stmt :=
  .record p.1 p.2.wagered p.2.won p.2.lost p.2.games
    (if 0 < p.2.biggest then some (p.2.biggest : Int) else none)

def ticketBet (r : TicketResult) : BetRow :=
  ⟨r.ticket.userId, r.ticket.costLamports, r.payoutLamports⟩

/-- Lottery: aggregates per user, prizes and bets per ticket. -/
def settleLottery (results : List TicketResult) (lotteryEnabled : Bool) : List Stmt :=
  (perUser results).map recordUser ++
    (if lotteryEnabled then []
      else results.flatMap fun r => credit r.ticket.userId r.payoutLamports) ++
    results.map fun r => .createBet (ticketBet r)

/-- One side of a coin flip; only a winner's `biggestWin` is raised. -/
def settleSide (stake : Nat) (userId : UserId) (won : Bool) : List Stmt :=
  let payout := winnerPayout stake
  let profit : Int := (payout : Int) - stake
  if won then
    [.record userId stake profit 0 1 (some profit), .createBet ⟨userId, stake, payout⟩,
      .move userId payout .jeton none]
  else
    [.record userId stake 0 stake 1 none, .createBet ⟨userId, stake, 0⟩]

/-- Coinflip, `resolve`: a joiner is debited here, the house has no row. -/
def resolveFlip (creatorId : UserId) (joiner : Option UserId) (stake : Nat) (creatorWins : Bool) :
    List Stmt :=
  match joiner with
  | some joinerId =>
      .move joinerId (-stake) .jeton none ::
        (settleSide stake creatorId creatorWins ++ settleSide stake joinerId !creatorWins)
  | none => settleSide stake creatorId creatorWins

/-! ## Stakes -/

/-- `move`: spendable to staked. `claimAndStake` is this for the balance it has read. -/
def moveStake (userId : UserId) (amount : Int) : List Stmt :=
  [.move userId (-amount) .scad none, .move userId amount .scad_staked none]

def stake (userId : UserId) (amount : Int) : Committed (List Stmt) := do
  ensure ((ENGINE.MIN_STAKE_SCAD_BASE : Int) ≤ amount)
    (.badRequest s!"Minimum stake is {ENGINE.MIN_STAKE_SCAD_BASE} SCAD base units")
  pure (moveStake userId amount)

/-- `autoStakeSweep`, for a user who has it on. -/
def autoStakeSweep (s : Books) (userId : UserId) : Committed (List Stmt) :=
  match s.users.get userId with
  | none => .ok []
  | some row =>
      if row.balance .scad < ENGINE.MIN_STAKE_SCAD_BASE then .ok []
      else .ok (moveStake userId (row.balance .scad))

def unstake (s : Books) (userId : UserId) (amount : Int) : Committed (List Stmt) := do
  ensure (0 < amount) (.badRequest "Amount must be positive")
  let row ← orThrow (s.users.get userId) (.notFound "User not found")
  ensure (amount ≤ row.balance .scad_staked) (.badRequest "Amount exceeds staked balance")
  pure [.move userId (-amount) .scad_staked none, .move userId amount .scad none]

/-! ## The vault -/

def deposit (s : Books) (userId : UserId) (poolId : PoolId) (amount : Int) (now : Time)
    (positionId : PositionId) : Committed (List Stmt) := do
  ensure ((VAULT.MIN_DEPOSIT_SCAD_BASE : Int) ≤ amount)
    (.badRequest s!"Minimum deposit is {VAULT.MIN_DEPOSIT_SCAD_BASE} SCAD base units")
  let amount := amount.toNat
  let pool ← orThrow (s.pools.get poolId) (.notFound "Vault pool not found")
  ensure pool.active (.notFound "Vault pool not found")
  let shares := sharesForDeposit amount pool.indexRay
  ensure (0 < shares) (.badRequest "Deposit too small to mint shares")
  ensure ((s.positions.get positionId).isNone) p2002
  let maturesAt := now + Vault.termMs pool.termDays
  pure
    [.move userId (-amount) .scad none, .move userId amount .scad_vault none,
      .setPool poolId { pool with
        totalAssets := pool.totalAssets + amount, totalShares := pool.totalShares + shares },
      .putPosition positionId (some ⟨userId, poolId, shares, amount, maturesAt⟩)]

/-- `if (net > 0n)` -/
def creditNet (userId : UserId) (net : Nat) : List Stmt :=
  if 0 < net then [.move userId net .scad none] else []

/-- The position without the burned shares; the row goes with the last. -/
def remaining (position : VaultPosition) (sharesToBurn portion : Nat) : Option VaultPosition :=
  if position.shares - sharesToBurn = 0 then none
  else some { position with
    shares := position.shares - sharesToBurn, principal := position.principal - portion }

def withdraw (s : Books) (userId : UserId) (positionId : PositionId) (shares : Option Int)
    (now : Time) : Committed (List Stmt) := do
  let position ← orThrow (s.positions.get positionId) (.notFound "Vault position not found")
  let pool ← orThrow (s.pools.get position.poolId) (.notFound "Vault position not found")
  ensure (position.userId = userId) (.notFound "Vault position not found")
  let sharesToBurn := shares.getD position.shares
  ensure (0 < sharesToBurn) (.badRequest "Shares must be positive")
  ensure (sharesToBurn ≤ position.shares) (.badRequest "Shares exceed position")
  let sharesToBurn := sharesToBurn.toNat
  let gross := assetsForShares sharesToBurn pool.indexRay
  let penalty := Vault.penaltyFor (now < position.maturesAt) gross
  let net := gross - penalty
  let portion := Vault.principalPortion position sharesToBurn
  pure ([.move userId (-portion) .scad_vault none] ++ creditNet userId net ++
    [.setPool position.poolId (pool.exit sharesToBurn net penalty),
      .putPosition positionId (remaining position sharesToBurn portion)])

/-! ## Transactions that only move balances -/

/-- One call of `applyBalanceDelta`; the vault's balance is moved by the vault only. -/
structure Move where
  userId : UserId
  delta : Int
  currency : Currency
  maxBalance : Option Int
  notVault : currency ≠ .scad_vault

/-- Stakes of open bets and their refunds, deposits, withdrawals, prizes,
commissions, dividends and block rewards. -/
def movements (moves : List Move) : List Stmt :=
  moves.map fun m => .move m.userId m.delta m.currency m.maxBalance

/-- A transaction whose movements all go through `applyBalanceDelta`. -/
inductive Operation where
  | movements (moves : List Move)
  | settleInstantBet (userId : UserId) (amountLamports payoutLamports : Nat)
  | settleStatefulRound (userId : UserId) (stakeLamports payoutLamports : Nat)
  | settleCrash (bets : List Result)
  | recoverCrash (bets : List StrandedBet)
  | settleBlackjack (seats : List Result)
  | settleJackpot (entries : List (UserId × Nat)) (winner : UserId) (payout : Nat)
  | settleLottery (results : List TicketResult) (lotteryEnabled : Bool)
  | resolveFlip (creatorId : UserId) (joiner : Option UserId) (stakeLamports : Nat)
      (creatorWins : Bool)
  | stake (userId : UserId) (amount : Int)
  | autoStakeSweep (userId : UserId)
  | unstake (userId : UserId) (amount : Int)
  | deposit (userId : UserId) (poolId : PoolId) (amount : Int) (now : Time)
      (positionId : PositionId)
  | withdraw (userId : UserId) (positionId : PositionId) (shares : Option Int) (now : Time)

def Operation.script (s : Books) : Operation → Committed (List Stmt)
  | .movements moves => .ok (Reconciliation.movements moves)
  | .settleInstantBet userId amountLamports payoutLamports =>
      .ok (Reconciliation.settleInstantBet userId amountLamports payoutLamports)
  | .settleStatefulRound userId stakeLamports payoutLamports =>
      .ok (Reconciliation.settleStatefulRound userId stakeLamports payoutLamports)
  | .settleCrash bets => .ok (Reconciliation.settleCrash bets)
  | .recoverCrash bets => .ok (Reconciliation.recoverCrash bets)
  | .settleBlackjack seats => .ok (Reconciliation.settleBlackjack seats)
  | .settleJackpot entries winner payout => .ok (Reconciliation.settleJackpot entries winner payout)
  | .settleLottery results enabled => .ok (Reconciliation.settleLottery results enabled)
  | .resolveFlip creatorId joiner stakeLamports creatorWins =>
      .ok (Reconciliation.resolveFlip creatorId joiner stakeLamports creatorWins)
  | .stake userId amount => Reconciliation.stake userId amount
  | .autoStakeSweep userId => Reconciliation.autoStakeSweep s userId
  | .unstake userId amount => Reconciliation.unstake s userId amount
  | .deposit userId poolId amount now positionId =>
      Reconciliation.deposit s userId poolId amount now positionId
  | .withdraw userId positionId shares now => Reconciliation.withdraw s userId positionId shares now

/-! ## Direct writes -/

/-- A sign-in by a new wallet. -/
def createUser (s : Books) (userId : UserId) : Committed Books :=
  match s.users.get userId with
  | some _ => .error p2002
  | none => .ok { s with users := s.users.set userId .new }

def DEMO_BOT_BALANCE : Int := 100000000000000

/-- `ensureBots`, for one bot: `user.upsert`. -/
def ensureBot (s : Books) (botId : UserId) : Books :=
  let row := s.row botId
  let bot := { row with balance := Function.update row.balance .jeton DEMO_BOT_BALANCE }
  { s with users := s.users.set botId bot }

/-- The vault accrual: indices and assets, never shares. -/
def accrue (s : Books) (credits : List Credit) : Committed Books := do
  let pools ← creditPools s.pools credits
  pure { s with pools := pools }

/-! ## Reward claims -/

def pendingOf (s : Books) (userId : UserId) (kind : ClaimKind) : Bool :=
  s.claims.entries.any fun p => p.2.userId = userId ∧ p.2.kind = kind ∧ p.2.status = .pending

/-- One pending claim per kind at a time. -/
def assertNonePending (s : Books) (userId : UserId) (kind : ClaimKind) : Committed Unit :=
  ensure (pendingOf s userId kind = false)
    (.badRequest "A claim is already pending confirmation")

/-- `rewardClaim.create` -/
def createClaim (s : Books) (claimId : ClaimId) (claim : RewardClaim) : Committed Books := do
  ensure ((s.claims.get claimId).isNone) p2002
  pure { s with claims := s.claims.set claimId claim }

def cashbackAccrued (totalLost baseline : Int) : Int :=
  let delta := totalLost - baseline
  if delta ≤ 0 then 0 else delta * SCAD.CASHBACK_PER_LAMPORT_LOST

/-- A claim of the earned $SCAD reserves it: the balance goes into
`scadiumReserved`, and no ledger row is written. -/
def claimWagerReward (s : Books) (userId : UserId) (claimId : ClaimId) : Committed Books := do
  let user ← orThrow (s.users.get userId) (.notFound "User not found")
  assertNonePending s userId .wagerReward
  let amount := user.balance .scad
  ensure (0 < amount) (.badRequest "Nothing to claim")
  let s' ← updateUser s userId fun row =>
    { row.increment .scad (-amount) with scadiumReserved := row.scadiumReserved + amount }
  createClaim s' claimId ⟨userId, .wagerReward, amount, .pending, 0⟩

/-- The baseline is bumped when the claim is confirmed. -/
def claimCashback (s : Books) (userId : UserId) (claimId : ClaimId) : Committed Books := do
  let user ← orThrow (s.users.get userId) (.notFound "User not found")
  assertNonePending s userId .cashback
  let amount := cashbackAccrued user.totals.lost user.cashbackBaselineLost
  ensure (0 < amount) (.badRequest "Nothing to claim")
  createClaim s claimId ⟨userId, .cashback, amount, .pending, 0⟩

def claimDividend (s : Books) (userId : UserId) (claimId : ClaimId) : Committed Books := do
  let user ← orThrow (s.users.get userId) (.notFound "User not found")
  assertNonePending s userId .dividend
  let amount := user.balance .usds
  ensure (0 < amount) (.badRequest "Nothing to claim")
  let s' ← updateUser s userId fun row =>
    { row.increment .usds (-amount) with usdsReserved := row.usdsReserved + amount }
  createClaim s' claimId ⟨userId, .dividend, amount, .pending, 0⟩

/-- A daily case; its tier is the seed's, its cooldown not compared. -/
def openDailyCase (s : Books) (userId : UserId) (claimId : ClaimId) (amount : Nat)
    (chainEnabled : Bool) : Committed Books := do
  let _ ← orThrow (s.users.get userId) (.notFound "User not found")
  createClaim s claimId
    ⟨userId, .dailyCase, amount, if chainEnabled then .pending else .offchain, 0⟩

/-- The guarded change of a claim that is still pending. -/
def flip (s : Books) (claimId : ClaimId) (claim : RewardClaim) : Books :=
  { s with claims := s.claims.set claimId claim }

/-- The chain has paid a claim; `totalLost` is the user's as the attempt read it. -/
def confirmClaim (s : Books) (claimId : ClaimId) (totalLost : Int) : Committed Books :=
  match s.claims.get claimId with
  | none => .ok s
  | some claim =>
      if claim.status ≠ .pending then .ok s
      else
        let s' := flip s claimId { claim with status := .confirmed }
        match claim.kind with
        | .wagerReward => updateUser s' claim.userId fun row =>
            { row with scadiumReserved := row.scadiumReserved - claim.amountScad }
        | .cashback => updateUser s' claim.userId fun row =>
            { row with cashbackBaselineLost := totalLost }
        | .dividend => updateUser s' claim.userId fun row =>
            { row with usdsReserved := row.usdsReserved - claim.amountScad }
        | .dailyCase => .ok s'

def MAX_CLAIM_ATTEMPTS : Nat := 5

/-- The chain did not: one more attempt, counted from what was read. With the
last, the reserve is restored, again without a ledger row. -/
def missClaim (s : Books) (claimId : ClaimId) (attemptsRead : Nat) : Committed Books :=
  match s.claims.get claimId with
  | none => .ok s
  | some claim =>
      let attempts := attemptsRead + 1
      if attempts < MAX_CLAIM_ATTEMPTS then .ok (flip s claimId { claim with attempts := attempts })
      else if claim.status ≠ .pending then .ok s
      else
        let s' := flip s claimId { claim with status := .failed, attempts := attempts }
        match claim.kind with
        | .wagerReward => updateUser s' claim.userId fun row =>
            { row.increment .scad claim.amountScad with
              scadiumReserved := row.scadiumReserved - claim.amountScad }
        | .dividend => updateUser s' claim.userId fun row =>
            { row.increment .usds claim.amountScad with
              usdsReserved := row.usdsReserved - claim.amountScad }
        | _ => .ok s'

/-! ## Steps -/

/-- One transaction. -/
inductive Act where
  | operation (o : Operation)
  | createUser (userId : UserId)
  | ensureBot (botId : UserId)
  | accrue (credits : List Credit)
  | claimWagerReward (userId : UserId) (claimId : ClaimId)
  | claimCashback (userId : UserId) (claimId : ClaimId)
  | claimDividend (userId : UserId) (claimId : ClaimId)
  | openDailyCase (userId : UserId) (claimId : ClaimId) (amount : Nat) (chainEnabled : Bool)
  | confirmClaim (claimId : ClaimId) (totalLost : Int)
  | missClaim (claimId : ClaimId) (attemptsRead : Nat)

variable (clock : Nat → Stamp)

def Act.perform (s : Books) : Act → Committed Books
  | .operation o => do
      let stmts ← o.script s
      exec clock s stmts
  | .createUser userId => Reconciliation.createUser s userId
  | .ensureBot botId => .ok (Reconciliation.ensureBot s botId)
  | .accrue credits => Reconciliation.accrue s credits
  | .claimWagerReward userId claimId => Reconciliation.claimWagerReward s userId claimId
  | .claimCashback userId claimId => Reconciliation.claimCashback s userId claimId
  | .claimDividend userId claimId => Reconciliation.claimDividend s userId claimId
  | .openDailyCase userId claimId amount chainEnabled =>
      Reconciliation.openDailyCase s userId claimId amount chainEnabled
  | .confirmClaim claimId totalLost => Reconciliation.confirmClaim s claimId totalLost
  | .missClaim claimId attemptsRead => Reconciliation.missClaim s claimId attemptsRead

/-- A transaction that throws is no step. -/
def step (s : Books) (act : Act) : Option Books := (act.perform clock s).toOption

end Scadium.Reconciliation
