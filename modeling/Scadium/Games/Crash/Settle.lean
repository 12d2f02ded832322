/-
Scadium.Games.Crash.Settle — the two transactions that end a crash round
(`games/crash/crash.engine.ts`): `settleOnce`, the live settle of the bets
the engine holds in memory, and the settlement of a stranded round in
`recoverStrandedRounds`, from the rows read before the transaction.

Both claim the round first, by a guarded update that only matches a round
which is not terminal. Recovery does not ask for leadership.
-/
import Scadium.Common.ExposureGuard
import Scadium.Games.RoundGuards
import Scadium.Prisma.Ledger

namespace Scadium.Games.Crash

open Scadium.Common (ExposureGuard)
open Scadium.Lib Scadium.Prisma

/-! ## The round in memory -/

inductive Phase where
  | waiting | running | busted
  deriving DecidableEq

/-- A bet in memory. `amountLamports` is the stake still riding. -/
structure LiveBet where
  userId : UserId
  username : Option String
  walletAddress : String
  amountLamports : Nat
  originalAmountLamports : Nat
  payoutLamports : Nat
  autoCashout : Option Rat
  cashedOutAt : Option Rat
  deriving DecidableEq

/-- The round in memory. -/
structure Round where
  id : RoundId
  seedId : SeedId
  serverSeed : String
  serverSeedHash : String
  clientSeed : String
  nonce : Nat
  bustPoint : Rat
  phase : Phase
  startedAt : Option Time
  waitingStartedAt : Option Time
  bets : List LiveBet
  beaconRound : Option Int
  betsClosed : Bool
  exposure : Option ExposureGuard
  deriving DecidableEq

/-- What one run of a closure reads from outside: leadership, the clock and
fresh ids for Bet rows and CrashBet rows. -/
structure SettleEnv where
  isLeader : Bool
  now : Time
  randomUUID : Nat → BetId
  crashBetId : Nat → EntryId

/-! ## Statements -/

/-- `status: { in: ['waiting', 'running'] }` -/
def unsettled (r : CrashRound) : Bool := r.status == .waiting || r.status == .running

/-- The claim: the guarded flip to `busted`. -/
def claimRound (roundId : RoundId) (data : CrashRound → CrashRound) : DbTx Unit Nat :=
  Tx.statement (·.updateManyCrashRound roundId unsettled data)

def revealSeed (seedId : SeedId) (now : Time) : DbTx Unit Unit :=
  Tx.statement (·.updateSeed seedId fun s => { s with revealedAt := some now })

/-- The row of a bet, by its unique key. -/
def isBetOf (roundId : RoundId) (userId : UserId) (b : CrashBet) : Bool :=
  b.roundId == roundId && b.userId == userId

/-- `crashBet.upsert` on (roundId, userId). -/
def upsertCrashBet (row : CrashBet) (db : Db) : Db :=
  if db.crashBets.any (isBetOf row.roundId row.userId) then
    { db with crashBets := db.crashBets.map fun b =>
        if isBetOf row.roundId row.userId b then
          { b with
            cashoutMultiplier := row.cashoutMultiplier
            payoutLamports := row.payoutLamports
            remainingLamports := row.remainingLamports
            won := row.won }
        else b }
  else { db with crashBets := row :: db.crashBets }

/-- `crashBet.update` by id. -/
def updateCrashBet (id : EntryId) (data : CrashBet → CrashBet) (db : Db) :
    Except TxError (Unit × Db) :=
  if db.crashBets.any (·.id == id) then
    .ok ((), { db with crashBets := db.crashBets.map fun b => if b.id = id then data b else b })
  else .error p2025

/-! ## The live settle -/

/-- `netProfit` -/
def LiveBet.netProfit (bet : LiveBet) : Int := bet.payoutLamports - bet.originalAmountLamports

/-- The final row of a bet. -/
def LiveBet.row (round : Round) (bet : LiveBet) (id : EntryId) : CrashBet where
  id := id
  roundId := round.id
  userId := bet.userId
  amountLamports := bet.originalAmountLamports
  remainingLamports := 0
  autoCashoutMultiplier := bet.autoCashout
  cashoutMultiplier := bet.cashedOutAt
  payoutLamports := bet.payoutLamports
  won := decide (0 < bet.payoutLamports)

/-- The Bet row; `entropy` is `currentEntropy`. -/
def LiveBet.bet (round : Round) (entropy : Option Bytes32) (bet : LiveBet) (betId : BetId) :
    Bet where
  id := betId
  userId := bet.userId
  gameType := .crash
  amountLamports := bet.originalAmountLamports
  payoutLamports := bet.payoutLamports
  multiplier := some
    (if 0 < bet.originalAmountLamports ∧ 0 < bet.payoutLamports
      then (bet.payoutLamports : Rat) / bet.originalAmountLamports
      else bet.cashedOutAt.getD round.bustPoint)
  status := if 0 < bet.payoutLamports then .won else .lost
  seedId := round.seedId
  nonce := round.nonce
  resultJson := .crash round.id round.bustPoint bet.cashedOutAt bet.payoutLamports
    { serverSeed := round.serverSeed
      serverSeedHash := round.serverSeedHash
      clientSeed := round.clientSeed
      nonce := round.nonce
      onchainEntropy := none
      beaconRound := round.beaconRound
      slotHash := round.beaconRound.bind fun _ => entropy
      entropySource := none }

/-- A pure loss moves no balance. -/
def creditPayout (bet : LiveBet) (betId : BetId) : DbTx Unit Unit :=
  if 0 < bet.payoutLamports then do
    let _ ← applyBalanceDelta bet.userId bet.payoutLamports
      { reason := "crash_settle", refType := "Bet", refId := some betId }
  else pure ()

/-- The body of the loop over the bets. -/
def settleBet (deps : Deps) (env : SettleEnv) (round : Round) (entropy : Option Bytes32) :
    LiveBet × Nat → DbTx Unit Unit
  | (bet, i) => do
      let betId := env.randomUUID i
      Tx.statement (·.updateUser bet.userId
        (recordWager bet.originalAmountLamports bet.netProfit))
      Tx.update (·.raiseBiggestWin bet.userId bet.netProfit)
      accrue deps env.now bet.userId bet.originalAmountLamports
      creditPayout bet betId
      Tx.update (upsertCrashBet (bet.row round (env.crashBetId i)))
      Tx.update (·.createBet (bet.bet round entropy betId))

/-- The closure of `settleOnce`, for the bets captured when the settle began
and the round installed when the closure runs. -/
def settleTx (deps : Deps) (env : SettleEnv) (round : Round) (entropy : Option Bytes32)
    (bets : List LiveBet) : DbTx Unit Unit := do
  assertStillLeader env.isLeader "crash"
  let count ← claimRound round.id fun r =>
    { r with status := .busted, bustMultiplier := some round.bustPoint, endedAt := some env.now }
  assertRoundClaimed count "crash" round.id
  Tx.each (settleBet deps env round entropy) bets.zipIdx
  revealSeed round.seedId env.now

/-! ## The recovery of a stranded round -/

/-- A row of the recovery scan. -/
structure StrandedRound where
  id : RoundId
  seedId : SeedId
  deriving DecidableEq

/-- Locked-in payouts plus the stake still riding. -/
def creditOf (bet : CrashBet) : Nat := bet.payoutLamports + bet.remainingLamports

def creditRecovered (round : StrandedRound) (bet : CrashBet) : DbTx Unit Unit :=
  if 0 < creditOf bet then do
    let _ ← applyBalanceDelta bet.userId (creditOf bet)
      { reason := "crash_recovery_refund", refType := "CrashRound", refId := some round.id }
  else pure ()

def recoveredBet (round : StrandedRound) (bet : CrashBet) (betId : BetId) : Bet where
  id := betId
  userId := bet.userId
  gameType := .crash
  amountLamports := bet.amountLamports
  payoutLamports := creditOf bet
  multiplier :=
    if 0 < bet.amountLamports ∧ 0 < creditOf bet then
      some ((creditOf bet : Rat) / bet.amountLamports)
    else none
  status := if 0 < bet.payoutLamports then .won else .lost
  seedId := round.seedId
  nonce := 0
  resultJson := .crashRecovered round.id bet.payoutLamports bet.remainingLamports

def recoverBet (deps : Deps) (env : SettleEnv) (round : StrandedRound) :
    CrashBet × Nat → DbTx Unit Unit
  | (bet, i) => do
      let net : Int := creditOf bet - bet.amountLamports
      let betId := env.randomUUID i
      creditRecovered round bet
      Tx.statement (updateCrashBet bet.id fun b =>
        { b with
          payoutLamports := bet.payoutLamports
          remainingLamports := 0
          won := decide (0 < bet.payoutLamports) })
      Tx.statement (·.updateUser bet.userId (recordWager bet.amountLamports net))
      Tx.update (·.raiseBiggestWin bet.userId net)
      accrue deps env.now bet.userId bet.amountLamports
      Tx.update (·.createBet (recoveredBet round bet betId))

/-- The closure of the recovery, for the rows read before the transaction. -/
def recoverTx (deps : Deps) (env : SettleEnv) (round : StrandedRound) (bets : List CrashBet) :
    DbTx Unit Unit := do
  let count ← claimRound round.id fun r => { r with status := .busted, endedAt := some env.now }
  assertRoundClaimed count "crash" round.id
  Tx.each (recoverBet deps env round) bets.zipIdx
  revealSeed round.seedId env.now

/-! ## What the two leave alone -/

section Frames

variable {γ : Type} {p : Db → γ} {deps : Deps} {env : SettleEnv}

theorem revealSeed_keeps (hseeds : ∀ (db : Db) seeds, p { db with seeds := seeds } = p db)
    (seedId : SeedId) (now : Time) : Tx.Keeps p (revealSeed seedId now) := by
  refine .statement ?_
  intro db a db' h
  obtain ⟨_, -, rfl⟩ := Db.updateSeed_ok h
  exact hseeds db _

theorem upsertCrashBet_eq (row : CrashBet) (db : Db) :
    ∃ bets, upsertCrashBet row db = { db with crashBets := bets } := by
  unfold upsertCrashBet
  split
  · exact ⟨_, rfl⟩
  · exact ⟨_, rfl⟩

variable (hp : OffPlayers p) (hbets : ∀ (db : Db) bets, p { db with bets := bets } = p db)
  (hcrash : ∀ (db : Db) bets, p { db with crashBets := bets } = p db)
include hp hbets hcrash

theorem settleBet_keeps (round : Round) (entropy : Option Bytes32) (bi : LiveBet × Nat) :
    Tx.Keeps p (settleBet deps env round entropy bi) := by
  obtain ⟨bet, i⟩ := bi
  refine .bind (updateUser_keeps hp.users _ _) fun _ => .bind (raiseBiggestWin_keeps hp.users _ _) fun _ =>
    .bind (accrue_keeps hp.board _ _ _ _) fun _ => .bind ?_ fun _ => .bind (.update ?_) fun _ =>
      .update fun db => hbets db _
  · exact .ite (.bind (applyBalanceDelta_keeps hp.movement _ _ _) fun _ => .pure _) (.pure _)
  · intro db
    obtain ⟨_, heq⟩ := upsertCrashBet_eq (bet.row round (env.crashBetId i)) db
    rw [heq, hcrash]

theorem recoverBet_keeps (round : StrandedRound) (bi : CrashBet × Nat) :
    Tx.Keeps p (recoverBet deps env round bi) := by
  obtain ⟨_, i⟩ := bi
  refine .bind ?_ fun _ => .bind (.statement ?_) fun _ => .bind (updateUser_keeps hp.users _ _) fun _ =>
    .bind (raiseBiggestWin_keeps hp.users _ _) fun _ => .bind (accrue_keeps hp.board _ _ _ _) fun _ =>
      .update fun db => hbets db _
  · exact .ite (.bind (applyBalanceDelta_keeps hp.movement _ _ _) fun _ => .pure _) (.pure _)
  · intro db a db' h
    unfold updateCrashBet at h
    split at h
    · cases h
      exact hcrash db _
    · cases h

variable (hrounds : ∀ (db : Db) rounds, p { db with crashRounds := rounds } = p db)
  (hseeds : ∀ (db : Db) seeds, p { db with seeds := seeds } = p db)
include hrounds hseeds

omit hp hbets hcrash hseeds in
theorem claimRound_keeps (roundId : RoundId) (data : CrashRound → CrashRound) :
    Tx.Keeps p (claimRound roundId data) := by
  refine .statement ?_
  intro db count db' h
  simp only [Db.updateManyCrashRound, Except.ok.injEq, Prod.mk.injEq] at h
  rw [← h.2, hrounds]

/-- The live settle leaves the tables of the other games alone. -/
theorem settleTx_keeps (round : Round) (entropy : Option Bytes32) (bets : List LiveBet) :
    Tx.Keeps p (settleTx deps env round entropy bets) :=
  .bind (.ite (.throw _) (.pure _)) fun _ => .bind (claimRound_keeps hrounds _ _) fun _ =>
    .bind (.ite (.throw _) (.pure _)) fun _ =>
      .bind (.each (settleBet_keeps hp hbets hcrash round entropy) _) fun _ =>
        revealSeed_keeps hseeds _ _

/-- So does the recovery. -/
theorem recoverTx_keeps (round : StrandedRound) (bets : List CrashBet) :
    Tx.Keeps p (recoverTx deps env round bets) :=
  .bind (claimRound_keeps hrounds _ _) fun _ => .bind (.ite (.throw _) (.pure _)) fun _ =>
    .bind (.each (recoverBet_keeps hp hbets hcrash round) _) fun _ => revealSeed_keeps hseeds _ _

end Frames

/-! ## The claim -/

section Claim

variable {deps : Deps} {env : SettleEnv} {s t : TxState Unit Db TxError} {u : Unit}

/-- The claim of a round that is not terminal, whatever else it writes. -/
theorem claimRound_ok {roundId : RoundId} {data : CrashRound → CrashRound} {count : Nat}
    (h : (claimRound roundId data).run s = .ok count t) (hcount : count ≠ 0) :
    ∃ row, s.db.crashRounds roundId = some row ∧ row.status ≠ .busted ∧
      t.db = { s.db with
        crashRounds := Function.update s.db.crashRounds roundId (some (data row)) } := by
  obtain ⟨hf, -⟩ := Tx.statement_ok h
  simp only [Db.updateManyCrashRound, Except.ok.injEq, Prod.mk.injEq] at hf
  obtain ⟨rfl, hdb⟩ := hf
  obtain ⟨row, hrow, hg, htable⟩ := claim_ok hcount
  refine ⟨row, hrow, ?_, ?_⟩
  · intro hbusted
    simp [unsettled, hbusted] at hg
  · rw [← hdb, htable]

/-- A committed transaction on a round: the round was not terminal and is
`busted` now; the other rounds are as they were. -/
def Claims (roundId : RoundId) (db db' : Db) : Prop :=
  ∃ row row', db.crashRounds roundId = some row ∧ row.status ≠ .busted ∧ row'.status = .busted ∧
    db'.crashRounds = Function.update db.crashRounds roundId (some row')

theorem settleTx_claims {round : Round} {entropy : Option Bytes32} {bets : List LiveBet}
    (h : (settleTx deps env round entropy bets).run s = .ok u t) :
    env.isLeader = true ∧ Claims round.id s.db t.db := by
  obtain ⟨_, _, hleader, h⟩ := Tx.bind_eq_ok.mp h
  obtain ⟨_, _, hclaim, h⟩ := Tx.bind_eq_ok.mp h
  obtain ⟨_, _, hguard, h⟩ := Tx.bind_eq_ok.mp h
  obtain ⟨_, _, hloop, hreveal⟩ := Tx.bind_eq_ok.mp h
  obtain ⟨hlead, rfl⟩ := assertStillLeader_ok hleader
  obtain ⟨hcount, rfl⟩ := assertRoundClaimed_ok hguard
  obtain ⟨row, hrow, hstatus, hdb⟩ := claimRound_ok hclaim hcount
  have hloopKeep := Tx.Keeps.each (settleBet_keeps (p := Db.crashRounds) (fun _ _ _ _ _ => rfl)
    (fun _ _ => rfl) (fun _ _ => rfl) round entropy) _ _ _ _ hloop
  have hrevealKeep := revealSeed_keeps (p := Db.crashRounds) (fun _ _ => rfl) _ _ _ _ _ hreveal
  refine ⟨hlead, row, _, hrow, hstatus, ?_, by rw [hrevealKeep, hloopKeep, hdb]⟩
  rfl

theorem recoverTx_claims {round : StrandedRound} {bets : List CrashBet}
    (h : (recoverTx deps env round bets).run s = .ok u t) : Claims round.id s.db t.db := by
  obtain ⟨_, _, hclaim, h⟩ := Tx.bind_eq_ok.mp h
  obtain ⟨_, _, hguard, h⟩ := Tx.bind_eq_ok.mp h
  obtain ⟨_, _, hloop, hreveal⟩ := Tx.bind_eq_ok.mp h
  obtain ⟨hcount, rfl⟩ := assertRoundClaimed_ok hguard
  obtain ⟨row, hrow, hstatus, hdb⟩ := claimRound_ok hclaim hcount
  have hloopKeep := Tx.Keeps.each (recoverBet_keeps (p := Db.crashRounds) (fun _ _ _ _ _ => rfl)
    (fun _ _ => rfl) (fun _ _ => rfl) round) _ _ _ _ hloop
  have hrevealKeep := revealSeed_keeps (p := Db.crashRounds) (fun _ _ => rfl) _ _ _ _ _ hreveal
  refine ⟨row, _, hrow, hstatus, ?_, by rw [hrevealKeep, hloopKeep, hdb]⟩
  rfl

end Claim

end Scadium.Games.Crash
