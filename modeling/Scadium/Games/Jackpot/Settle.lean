/-
Scadium.Games.Jackpot.Settle — the settle closure of
`JackpotEngine.settleRound` (`games/jackpot/jackpot.engine.ts`), the
transaction that draws or refunds a round, and what the engine publishes
after it commits.

`Captured` holds the variables of `settleRound` the closure assigns; they
live outside the transaction. `SettleInput` holds what `settleRound` fixed
before the transaction: the round's seeds, the draw seed, the beacon value
and whether every retry has failed (`forceRefund`). `SettleEnv` is what one
run of the closure reads from outside the database.
-/
import Mathlib.Data.List.Sort
import Scadium.Fair.Jackpot
import Scadium.Games.RoundGuards
import Scadium.Lib.GroupBy

namespace Scadium.Games.Jackpot

open Scadium.Lib Scadium.Prisma Scadium.Fair Scadium.Shared

/-! ## Data -/

/-- A collected settle: the receipt and the feed entry of one player. -/
structure SettleJob where
  betId : BetId
  userId : UserId
  walletAddress : String
  stake : Nat
  payout : Nat
  multiplier : Rat
  won : Bool
  deriving DecidableEq

/-- The captured variables. -/
structure Captured where
  total : Nat
  distinctCount : Nat
  didRefund : Bool
  winnerUserId : Option UserId
  winnerName : Option String
  ranges : List JackpotRangeRow
  ticket : Option Nat
  payout : Nat
  settleJobs : List SettleJob
  deriving DecidableEq

/-- Their values before the first attempt. -/
def Captured.init : Captured where
  total := 0
  distinctCount := 0
  didRefund := false
  winnerUserId := none
  winnerName := none
  ranges := []
  ticket := none
  payout := 0
  settleJobs := []

/-- What `settleRound` has fixed when the transaction starts. -/
structure SettleInput where
  roundId : RoundId
  seedId : SeedId
  serverSeed : String
  serverSeedHash : String
  clientSeed : String
  nonce : Nat
  drawSeed : String
  onchainEntropyHex : Option Bytes32
  forceRefund : Bool
  beaconRound : Option Int
  entropyHex : Option Bytes32

/-- One run's leadership, clock and fresh bet ids. -/
structure SettleEnv where
  isLeader : Bool
  now : Time
  randomUUID : Nat → BetId

/-- An entry as the closure reads it, with the joined user. -/
structure EntryWithUser where
  userId : UserId
  amountLamports : Nat
  username : Option String
  walletAddress : String
  deriving DecidableEq

/-- One player's contribution (`byUser`). -/
structure PlayerInfo where
  amount : Nat
  username : Option String
  walletAddress : String
  deriving DecidableEq

/-- `shortWallet`: first4…last4. -/
def shortWallet (addr : String) : String :=
  if addr.length ≤ 10 then addr
  else String.ofList (addr.toList.take 4) ++ "…" ++
    String.ofList (addr.toList.drop (addr.length - 4))

/-- Username if the player set one, else their shortened wallet. -/
def displayHandle (username : Option String) (walletAddress : String) : String :=
  match username with
  | some name => if name = "" then shortWallet walletAddress else name
  | none => shortWallet walletAddress

/-! ## The closure -/

/-- `orderBy: [{ createdAt: 'asc' }, { id: 'asc' }]` -/
def EntryLe (a b : JackpotEntry) : Prop :=
  a.createdAt < b.createdAt ∨ a.createdAt = b.createdAt ∧ a.id ≤ b.id

instance : DecidableRel EntryLe := fun _ _ => inferInstanceAs (Decidable (_ ∨ _))

/-- The round's entries, in order. -/
def roundEntries (roundId : RoundId) (db : Db) : List JackpotEntry :=
  (db.jackpotEntries.filter (·.roundId = roundId)).insertionSort EntryLe

def withUser (db : Db) (e : JackpotEntry) : EntryWithUser :=
  match db.users e.userId with
  | some u => ⟨e.userId, e.amountLamports, u.username, u.walletAddress⟩
  | none => ⟨e.userId, e.amountLamports, none, ""⟩

/-- `jackpotEntry.findMany` with the user included. -/
def findEntries (roundId : RoundId) (db : Db) : List EntryWithUser :=
  (roundEntries roundId db).map (withUser db)

/-- `new Set(entries.map((e) => e.userId)).size` -/
def distinctPlayers (entries : List EntryWithUser) : Nat := (entries.map (·.userId)).dedup.length

/-- `entries.reduce((s, e) => s + e.amountLamports, 0)` -/
def pot (entries : List EntryWithUser) : Nat := (entries.map (·.amountLamports)).sum

/-- Not enough distinct players, or every draw has failed. -/
def refunds (inp : SettleInput) (entries : List EntryWithUser) : Bool :=
  decide (distinctPlayers entries < JACKPOT.MIN_PLAYERS) || inp.forceRefund

/-- The claim on the round row: `open` to `status`, with the result. -/
def claimRound (roundId : RoundId) (data : JackpotRound → JackpotRound) : DbTx Captured Nat :=
  Tx.statement (·.updateManyJackpotRound roundId (·.status == .open) data)

def revealSeed (inp : SettleInput) (env : SettleEnv) : DbTx Captured Unit :=
  Tx.statement (·.updateSeed inp.seedId fun s => { s with revealedAt := some env.now })

def refundEntry (inp : SettleInput) (e : EntryWithUser) : DbTx Captured Unit := do
  let _ ← applyBalanceDelta e.userId e.amountLamports
    { reason := "jackpot_refund", refType := "JackpotRound", refId := some inp.roundId }

def refundPath (inp : SettleInput) (env : SettleEnv) (entries : List EntryWithUser) :
    DbTx Captured Unit := do
  Tx.assign fun v => { v with didRefund := true }
  let count ← claimRound inp.roundId fun r =>
    { r with status := .refunded, totalLamports := pot entries, drawnAt := some env.now }
  assertRoundClaimed count "jackpot" inp.roundId
  Tx.each (refundEntry inp) entries
  revealSeed inp env

/-- The ticket: from the beacon value when there is one, else from the
draw seed alone. -/
def drawTicket (deps : Deps) (inp : SettleInput) (total : Nat) : Nat :=
  match inp.entropyHex with
  | some entropy =>
      jackpotTicketFromEntropy deps.sha inp.serverSeed inp.clientSeed entropy inp.nonce total
  | none => jackpotWinningTicket deps.sha inp.drawSeed inp.clientSeed inp.nonce total

/-- `entries[winnerIdx] ?? entries[0]!` -/
def winnerOf (entries : List EntryWithUser) (ticket : Nat) : Option EntryWithUser :=
  match jackpotWinnerIndex (entries.map (·.amountLamports)) ticket with
  | some i => entries[i]?.or entries[0]?
  | none => entries[0]?

def rangeRows (deps : Deps) (entries : List EntryWithUser) : List JackpotRangeRow :=
  (entries.zip (jackpotRanges (entries.map (·.amountLamports)))).map fun (e, r) =>
    ⟨deps.publicPlayerId e.userId, displayHandle e.username e.walletAddress,
      e.amountLamports, r.1, r.2⟩

/-- `(total * BigInt(Math.round((1 - HOUSE_EDGE) * 1000))) / 1000n` -/
def potPayout (total : Nat) : Nat := total * JACKPOT.payoutPerMille / 1000

def addEntry (cur : Option PlayerInfo) (e : EntryWithUser) : PlayerInfo :=
  let cur := cur.getD ⟨0, e.username, e.walletAddress⟩
  { cur with amount := cur.amount + e.amountLamports }

/-- Per-user totals, in order of first entry. -/
def byUser (entries : List EntryWithUser) : List (UserId × PlayerInfo) :=
  groupBy (·.userId) addEntry entries

/-- What one run of the closure has decided when it draws. -/
structure Drawn where
  total : Nat
  ticket : Nat
  winner : EntryWithUser
  payout : Nat
  ranges : List JackpotRangeRow

def Drawn.credited (d : Drawn) (userId : UserId) : Nat :=
  if userId = d.winner.userId then d.payout else 0

/-- The multiplier of a settled player, `credited / stake`. -/
def multiplierOf (credited stake : Nat) : Rat := if 0 < stake then (credited : Rat) / stake else 0

/-- `won` is being the winner, whatever the payout. -/
def Drawn.job (d : Drawn) (betId : BetId) (userId : UserId) (info : PlayerInfo) : SettleJob where
  betId := betId
  userId := userId
  walletAddress := info.walletAddress
  stake := info.amount
  payout := d.credited userId
  multiplier := multiplierOf (d.credited userId) info.amount
  won := userId = d.winner.userId

def Drawn.bet (deps : Deps) (inp : SettleInput) (d : Drawn) (betId : BetId) (userId : UserId)
    (info : PlayerInfo) : Bet where
  id := betId
  userId := userId
  gameType := .jackpot
  amountLamports := info.amount
  payoutLamports := d.credited userId
  multiplier := some (multiplierOf (d.credited userId) info.amount)
  status := if userId = d.winner.userId then .won else .lost
  seedId := inp.seedId
  nonce := inp.nonce
  resultJson := .jackpot d.total d.ticket (userId = d.winner.userId)
    (d.ranges.find? (·.playerId == deps.publicPlayerId userId))
    { serverSeed := inp.serverSeed
      serverSeedHash := inp.serverSeedHash
      clientSeed := inp.clientSeed
      nonce := inp.nonce
      onchainEntropy := inp.onchainEntropyHex
      beaconRound := inp.entropyHex.bind fun _ => inp.beaconRound
      slotHash := inp.entropyHex
      entropySource := none }

/-- Credit the winner; losers move nothing. -/
def creditPlayer (d : Drawn) (betId : BetId) (userId : UserId) : DbTx Captured Unit :=
  if 0 < d.credited userId then do
    let _ ← applyBalanceDelta userId (d.credited userId)
      { reason := "jackpot_settle", refType := "Bet", refId := some betId }
  else pure ()

/-- The body of the loop over `byUser`. -/
def settlePlayer (deps : Deps) (inp : SettleInput) (env : SettleEnv) (d : Drawn) :
    (UserId × PlayerInfo) × Nat → DbTx Captured Unit
  | ((userId, info), i) => do
      let profit : Int := d.credited userId - info.amount
      let betId := env.randomUUID i
      Tx.assign fun v => { v with settleJobs := v.settleJobs ++ [d.job betId userId info] }
      Tx.statement (·.updateUser userId (recordWager info.amount profit))
      Tx.update (·.raiseBiggestWin userId profit)
      accrue deps env.now userId info.amount
      creditReferral deps userId info.amount .jackpot
      creditPlayer d betId userId
      Tx.update (·.createBet (d.bet deps inp betId userId info))

/-- The captured results of a draw. -/
def Captured.setDrawn (v : Captured) (d : Drawn) : Captured :=
  { v with
    ranges := d.ranges
    ticket := some d.ticket
    winnerUserId := some d.winner.userId
    winnerName := some (displayHandle d.winner.username d.winner.walletAddress)
    payout := d.payout }

/-- The result columns of a draw. -/
def drawnRow (inp : SettleInput) (env : SettleEnv) (d : Drawn) (r : JackpotRound) : JackpotRound :=
  { r with
    status := .drawn
    totalLamports := d.total
    winnerId := some d.winner.userId
    winningTicket := some d.ticket
    payoutLamports := d.payout
    drawnAt := some env.now
    rangesJson := d.ranges
    beaconRound := inp.beaconRound
    slotHash := inp.entropyHex }

def settleDrawn (deps : Deps) (inp : SettleInput) (env : SettleEnv)
    (entries : List EntryWithUser) (d : Drawn) : DbTx Captured Unit := do
  Tx.assign (·.setDrawn d)
  let count ← claimRound inp.roundId (drawnRow inp env d)
  assertRoundClaimed count "jackpot" inp.roundId
  Tx.assign fun v => { v with settleJobs := [] }
  Tx.each (settlePlayer deps inp env d) (byUser entries).zipIdx
  revealSeed inp env

/-- The draw of the entries, once the winner is found. -/
def drawOf (deps : Deps) (inp : SettleInput) (entries : List EntryWithUser)
    (winner : EntryWithUser) : Drawn where
  total := pot entries
  ticket := drawTicket deps inp (pot entries)
  winner := winner
  payout := potPayout (pot entries)
  ranges := rangeRows deps entries

/-- `winner` would be `undefined` without entries: the read of `winner.userId`
throws. -/
def drawPath (deps : Deps) (inp : SettleInput) (env : SettleEnv) (entries : List EntryWithUser) :
    DbTx Captured Unit :=
  match winnerOf entries (drawTicket deps inp (pot entries)) with
  | none => throw (.other none "Cannot read properties of undefined (reading 'userId')")
  | some winner => settleDrawn deps inp env entries (drawOf deps inp entries winner)

/-- The closure. -/
def settleTx (deps : Deps) (inp : SettleInput) (env : SettleEnv) : DbTx Captured Unit := do
  assertStillLeader env.isLeader "jackpot"
  let entries ← Tx.query (findEntries inp.roundId)
  Tx.assign fun v => { v with distinctCount := distinctPlayers entries, total := pot entries }
  if refunds inp entries then refundPath inp env entries
  else drawPath deps inp env entries

/-! ## After the commit -/

/-- What `settleRound` publishes. -/
inductive Effect where
  /-- `round.status = …` -/
  | roundStatus (status : JackpotRoundStatus)
  | lastResult (roundId : RoundId) (status : JackpotRoundStatus) (winnerName : Option String)
      (payout total : Nat) (ticket : Option Nat) (beaconRound : Option Int)
  | emitDrawResult (roundId : RoundId) (status : JackpotRoundStatus)
      (winnerPlayerId winnerName : Option String) (payoutLamports totalLamports : Nat)
      (winningTicket : Option Nat) (serverSeed : String) (beaconRound : Option Int)
      (slotHash : Option Bytes32) (ranges : List JackpotRangeRow)
  | publishSettledBet (userId : UserId) (betId : BetId) (amountLamports payoutLamports : Nat)
      (multiplier : Option Rat) (won : Bool)
  | recordBet (betId : BetId) (walletAddress : String) (stakeLamports payoutLamports : Nat)
      (multiplier : Rat)
  | logRefunded (roundId : RoundId) (distinctCount : Nat)
  | logWinner (roundId : RoundId) (winner : Option String) (payout total : Nat)
  deriving DecidableEq

def publishRefunded (inp : SettleInput) (v : Captured) : List Effect :=
  [.roundStatus .refunded,
    .lastResult inp.roundId .refunded none 0 v.total none none,
    .emitDrawResult inp.roundId .refunded none none 0 v.total none inp.serverSeed none none [],
    .logRefunded inp.roundId v.distinctCount]

def feedEntry (job : SettleJob) : Effect :=
  .publishSettledBet job.userId job.betId job.stake job.payout
    (if job.won && decide (0 < job.stake) then some job.multiplier else none) job.won

def receipt (job : SettleJob) : Effect :=
  .recordBet job.betId job.walletAddress job.stake job.payout job.multiplier

/-- `winnerName ?? winnerUserId`, as the log line prints it. -/
def logName (v : Captured) : Option String := v.winnerName.or (v.winnerUserId.map toString)

def publishDrawn (deps : Deps) (chainEnabled : Bool) (inp : SettleInput) (v : Captured) :
    List Effect :=
  [.roundStatus .drawn] ++ v.settleJobs.map feedEntry ++
    (if chainEnabled then v.settleJobs.map receipt else []) ++
    [.lastResult inp.roundId .drawn v.winnerName v.payout v.total v.ticket inp.beaconRound,
      .emitDrawResult inp.roundId .drawn (v.winnerUserId.map deps.publicPlayerId) v.winnerName
        v.payout v.total v.ticket inp.serverSeed inp.beaconRound inp.entropyHex v.ranges,
      .logWinner inp.roundId (logName v) v.payout v.total]

/-- The effects of a committed settle, from the captured variables. -/
def publish (deps : Deps) (chainEnabled : Bool) (inp : SettleInput) (v : Captured) : List Effect :=
  if v.didRefund then publishRefunded inp v else publishDrawn deps chainEnabled inp v

/-! ## A sample round -/

namespace Sample

/-- The digests of `input`'s seeds. -/
def sha : Sha where
  sha256 _ := 0xf47225fa0cf92256d9538ea4b1212dac49050cde87c4298c3aa1e51585624725
  hmacSha256 _ _ := 0x88e76c7d9a2ff80c84cbb7585a3a55e069674f8781932c80d7740520ca4df603

def deps : Deps where
  sha := sha
  economyEnforced := true
  publicPlayerId u := s!"player{u}"
  referralCommission _ _ _ := 0
  scadBaseToLamports scadBase := scadBase
  periodKeys _ := ("day", "week")

def input : SettleInput where
  roundId := 1
  seedId := 1
  serverSeed := "5c5c5c5c5c5c5c5c5c5c5c5c5c5c5c5c5c5c5c5c5c5c5c5c5c5c5c5c5c5c5c5c"
  serverSeedHash := "098092733757e5813a29b5b95327e3c04fc287a188f737cd47b4eebf693a3d65"
  clientSeed := "jackpot"
  nonce := 1
  drawSeed := "5c5c5c5c5c5c5c5c5c5c5c5c5c5c5c5c5c5c5c5c5c5c5c5c5c5c5c5c5c5c5c5c"
  onchainEntropyHex := none
  forceRefund := false
  beaconRound := none
  entropyHex := none

def leader : SettleEnv where
  isLeader := true
  now := 90000
  randomUUID i := 100 + i

def user (name : String) : User where
  username := some name
  walletAddress := "wallet-of-" ++ name
  banned := false
  fundedAt := some 1
  referredById := none
  signupIpHash := none
  balance _ := 1000000000
  totalWagered := 0
  totalWon := 0
  totalLost := 0
  biggestWin := 0
  gamesPlayed := 0

def openRound : JackpotRound where
  seedId := 1
  nonce := 1
  status := .open
  totalLamports := 0
  winnerId := none
  winningTicket := none
  payoutLamports := 0
  closeAt := some 60000
  drawnAt := none
  rangesJson := []
  beaconRound := none
  slotHash := none

/-- An open round with some entries by users 1 and 2. -/
def db (entries : List JackpotEntry) : Db :=
  { Db.empty with
    users := fun u =>
      if u = 1 then some (user "ada") else if u = 2 then some (user "bob") else none
    seeds := fun s =>
      if s = 1 then some ⟨input.serverSeedHash, input.serverSeed, input.clientSeed, none⟩ else none
    jackpotRounds := fun r => if r = 1 then some openRound else none
    jackpotEntries := entries }

def firstEntry : JackpotEntry := ⟨1, 1, 1, 10000000, 1000⟩
def secondEntry : JackpotEntry := ⟨2, 1, 2, 20000000, 2000⟩

end Sample

end Scadium.Games.Jackpot
