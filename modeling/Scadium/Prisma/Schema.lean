/-
Scadium.Prisma.Schema — the tables the pooled games settle on
(`apps/api/prisma/schema.prisma`).

A row keeps the columns the modelled functions read or write. Ids are
UUIDs in the source; here they are numbers, with the same order standing
for the order of the id column. A table looked up by its key is a function
to `Option`; a table that is also scanned (`findMany`) is the list of its
rows, newest first. Amounts are `BigInt` columns: naturals where the column
only ever holds a stake or a payout, integers for balances and deltas.
`Float` columns hold exact rationals, and a column with the hex digits of a
32-byte value holds the value.
-/
import Mathlib.Data.Rat.Floor
import Mathlib.Logic.Function.Basic

namespace Scadium.Prisma

abbrev UserId := Nat
abbrev SeedId := Nat
abbrev RoundId := Nat
abbrev EntryId := Nat
abbrev BetId := Nat
/-- Milliseconds since the epoch. -/
abbrev Time := Nat
/-- A 32-byte value: a digest or a beacon value. -/
abbrev Bytes32 := BitVec 256

inductive Currency where
  | jeton | scad | scad_staked | usds | scad_vault
  deriving DecidableEq, Repr

inductive GameType where
  | crash | lottery | jackpot
  deriving DecidableEq

inductive BetStatus where
  | pending | won | lost | refunded
  deriving DecidableEq

inductive JackpotRoundStatus where
  | open | drawn | refunded
  deriving DecidableEq

inductive LotteryDrawStatus where
  | open | drawn
  deriving DecidableEq

inductive CrashRoundStatus where
  | waiting | running | busted
  deriving DecidableEq

/-- A user, with one column per currency (`BALANCE_COLUMN`). -/
structure User where
  username : Option String
  walletAddress : String
  banned : Bool
  fundedAt : Option Time
  referredById : Option UserId
  signupIpHash : Option String
  balance : Currency → Int
  totalWagered : Int
  totalWon : Int
  totalLost : Int
  biggestWin : Int
  gamesPlayed : Nat

structure BalanceLedger where
  userId : UserId
  currency : Currency
  delta : Int
  reason : String
  refType : String
  refId : Option Nat
  balanceAfter : Int
  deriving DecidableEq

/-- The seed pair of a shared round. -/
structure Seed where
  serverSeedHash : String
  serverSeed : String
  clientSeed : String
  revealedAt : Option Time
  deriving DecidableEq

/-- One entry's slice of the pot, as published. -/
structure JackpotRangeRow where
  playerId : String
  player : String
  amountLamports : Nat
  start : Nat
  stop : Nat
  deriving DecidableEq

/-- The verification context stored with a bet of a shared round. -/
structure FairContext where
  serverSeed : String
  serverSeedHash : String
  clientSeed : String
  nonce : Nat
  onchainEntropy : Option Bytes32
  beaconRound : Option Int
  slotHash : Option Bytes32
  entropySource : Option String
  deriving DecidableEq

/-- `Bet.resultJson`, by writer. -/
inductive ResultJson where
  | jackpot (totalLamports winningTicket : Nat) (won : Bool) (range : Option JackpotRangeRow)
      (fair : FairContext)
  | lottery (drawIndex : Nat) (drawDigits ticketDigits : List Nat) (matchLen : Nat) (bracket : Option Nat)
      (prizeScadBase : Nat) (fair : FairContext)
  | crash (roundId : RoundId) (bustPoint : Rat) (cashedOutAt : Option Rat)
      (partialPayouts : Nat) (fair : FairContext)
  | crashRecovered (roundId : RoundId) (payoutLamports refundedLamports : Nat)
  deriving DecidableEq

structure Bet where
  id : BetId
  userId : UserId
  gameType : GameType
  amountLamports : Nat
  payoutLamports : Nat
  multiplier : Option Rat
  status : BetStatus
  seedId : SeedId
  nonce : Nat
  resultJson : ResultJson
  deriving DecidableEq

structure JackpotRound where
  seedId : SeedId
  nonce : Nat
  status : JackpotRoundStatus
  totalLamports : Nat
  winnerId : Option UserId
  winningTicket : Option Nat
  payoutLamports : Nat
  closeAt : Option Time
  drawnAt : Option Time
  rangesJson : List JackpotRangeRow
  beaconRound : Option Int
  slotHash : Option Bytes32
  deriving DecidableEq

/-- `@@unique([roundId, userId])` is checked where rows are created. -/
structure JackpotEntry where
  id : EntryId
  roundId : RoundId
  userId : UserId
  amountLamports : Nat
  createdAt : Time
  deriving DecidableEq

structure LotteryDraw where
  drawIndex : Nat
  seedId : SeedId
  nonce : Nat
  status : LotteryDrawStatus
  injectionScadBase : Nat
  rolloverScadBase : Nat
  winningDigits : List Nat
  slotHash : Option Bytes32
  fairness : Option String
  beaconRound : Option Int
  totalPoolScadBase : Nat
  burnScadBase : Nat
  bracketWinnerCounts : List Nat
  bracketAmountsScadBase : List Nat
  bracketRolloverScadBase : List Nat
  revealTxSignature : Option String
  drawnAt : Option Time
  deriving DecidableEq

structure LotteryTicket where
  id : EntryId
  drawId : RoundId
  userId : UserId
  digits : List Nat
  costLamports : Nat
  costScadBase : Nat
  payoutLamports : Nat
  payoutScadBase : Nat
  matchLen : Nat
  bracket : Option Nat
  won : Bool
  deriving DecidableEq

structure CrashRound where
  seedId : SeedId
  nonce : Nat
  status : CrashRoundStatus
  bustMultiplier : Option Rat
  endedAt : Option Time
  beaconRound : Option Int
  deriving DecidableEq

/-- `@@unique([roundId, userId])` is checked where rows are created. -/
structure CrashBet where
  id : EntryId
  roundId : RoundId
  userId : UserId
  amountLamports : Nat
  remainingLamports : Nat
  autoCashoutMultiplier : Option Rat
  cashoutMultiplier : Option Rat
  payoutLamports : Nat
  won : Bool
  deriving DecidableEq

/-- `refereeId @unique` -/
structure Referral where
  refereeId : UserId
  referrerId : UserId
  volumeLamports : Nat
  commissionLamports : Nat
  flagged : Bool
  deriving DecidableEq

/-- A key of `IdempotencyKey`: user, scope and client key. -/
abbrev IdempotencyRef := UserId × String × String

/-- The database. `idempotencyKeys` holds the stored response, if any, of
every claimed key; the response is what the replaying call returns. -/
structure Db where
  users : UserId → Option User
  ledger : List BalanceLedger
  bets : List Bet
  seeds : SeedId → Option Seed
  jackpotRounds : RoundId → Option JackpotRound
  jackpotEntries : List JackpotEntry
  lotteryDraws : RoundId → Option LotteryDraw
  lotteryTickets : List LotteryTicket
  crashRounds : RoundId → Option CrashRound
  crashBets : List CrashBet
  referrals : List Referral
  wagerLeaderboard : String → UserId → Nat
  idempotencyKeys : IdempotencyRef → Option (Option String)

/-- No row in any table. -/
def Db.empty : Db where
  users _ := none
  ledger := []
  bets := []
  seeds _ := none
  jackpotRounds _ := none
  jackpotEntries := []
  lotteryDraws _ := none
  lotteryTickets := []
  crashRounds _ := none
  crashBets := []
  referrals := []
  wagerLeaderboard _ _ := 0
  idempotencyKeys _ := none

/-- A user's balance in one currency, 0 without a row. -/
def Db.balance (db : Db) (u : UserId) (c : Currency) : Int :=
  match db.users u with
  | some user => user.balance c
  | none => 0

end Scadium.Prisma
