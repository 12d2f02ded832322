/-
Scadium.Games.Lottery.Settle — the settle transaction of a lottery draw
(`settleDraw`, `games/lottery/lottery.engine.ts`).

`SettleInput` holds what `settleDraw` fixed before the transaction: the
draw, its seeds, the winning digits and where their entropy came from.
`Captured` holds the variables the closure assigns. The per-ticket results
are computed from the tickets the transaction reads; they are then written
set-based, in chunks.

A settle that commits claimed an open draw, wrote its result and one Bet row
for each ticket it read, and left the keys of all tickets as they were.
-/
import Scadium.Fair.Lottery
import Scadium.Games.RoundGuards
import Scadium.Lib.GroupBy
import Scadium.Prisma.Ledger

namespace Scadium.Games.Lottery

open Scadium.Lib Scadium.Prisma Scadium.Fair Scadium.Shared

/-! ## Data -/

structure SettleInput where
  drawId : RoundId
  drawIndex : Nat
  seedId : SeedId
  serverSeed : String
  serverSeedHash : String
  clientSeed : String
  nonce : Nat
  injectionScadBase : Nat
  rolloverScadBase : Nat
  digits : List Nat
  slotHash : Bytes32
  fairness : String
  beaconRound : Option Int
  revealTxSignature : Option String
  /-- `chain.lotteryEnabled` -/
  lotteryEnabled : Bool

structure SettleEnv where
  isLeader : Bool
  now : Time
  randomUUID : Nat → BetId

/-- One on-chain prize, summed per wallet. -/
structure PrizeJob where
  walletAddress : String
  amountScadBase : Nat
  bracket : Nat
  ticketIds : List EntryId
  deriving DecidableEq

/-- One ticket on the live feed. -/
structure FeedJob where
  userId : UserId
  betId : BetId
  cost : Nat
  payout : Nat
  won : Bool
  deriving DecidableEq

structure Captured where
  bracketWinnerCounts : List Nat
  totalPool : Nat
  burnScadBase : Nat
  nextRollover : Nat
  winnersCount : Nat
  topPrizeScadBase : Nat
  prizeJobs : List PrizeJob
  ticketsLen : Nat
  feedJobs : List FeedJob
  deriving DecidableEq

def Captured.init : Captured where
  bracketWinnerCounts := List.replicate LOTTERY.BRACKET_COUNT 0
  totalPool := 0
  burnScadBase := 0
  nextRollover := 0
  winnersCount := 0
  topPrizeScadBase := 0
  prizeJobs := []
  ticketsLen := 0
  feedJobs := []

/-! ## The results of the tickets -/

/-- A ticket as the closure reads it, with the buyer's wallet. -/
structure TicketWithUser where
  ticket : LotteryTicket
  walletAddress : String
  deriving DecidableEq

def walletOf (db : Db) (u : UserId) : String :=
  match db.users u with
  | some user => user.walletAddress
  | none => ""

/-- `lotteryTicket.findMany` with the user's wallet, in no promised order. -/
def findTickets (drawId : RoundId) (db : Db) : List TicketWithUser :=
  (db.lotteryTickets.filter (·.drawId = drawId)).map fun t => ⟨t, walletOf db t.userId⟩

def matchLenOf (inp : SettleInput) (t : TicketWithUser) : Nat :=
  lotteryLeadingMatch t.ticket.digits inp.digits

def bracketOf (inp : SettleInput) (t : TicketWithUser) : Option Nat :=
  lotteryBracket (matchLenOf inp t)

/-- `bracketWinnerCounts[bracket] += 1` -/
def countBracket (counts : List Nat) : Option Nat → List Nat
  | some b => counts.modify b (· + 1)
  | none => counts

def winnerCounts (inp : SettleInput) (tickets : List TicketWithUser) : List Nat :=
  (tickets.map (bracketOf inp)).foldl countBracket (List.replicate LOTTERY.BRACKET_COUNT 0)

/-- Sales, injection and what the last draw rolled over. -/
def poolOf (inp : SettleInput) (tickets : List TicketWithUser) : Nat :=
  (tickets.map (·.ticket.costScadBase)).sum + inp.injectionScadBase + inp.rolloverScadBase

def prizesOf (inp : SettleInput) (tickets : List TicketWithUser) : BracketSettlement :=
  splitBracketPrizes (poolOf inp tickets) (winnerCounts inp tickets)

structure TicketResult where
  ticket : LotteryTicket
  walletAddress : String
  matchLen : Nat
  bracket : Option Nat
  payoutScadBase : Nat
  payoutLamports : Nat
  won : Bool
  deriving DecidableEq

def resultOf (deps : Deps) (inp : SettleInput) (prizes : BracketSettlement)
    (t : TicketWithUser) : TicketResult :=
  let payout := match bracketOf inp t with
    | some b => prizes.perWinner.getD b 0
    | none => 0
  { ticket := t.ticket
    walletAddress := t.walletAddress
    matchLen := matchLenOf inp t
    bracket := bracketOf inp t
    payoutScadBase := payout
    payoutLamports := deps.scadBaseToLamports payout
    won := decide (0 < payout) }

/-- `ticketResults` -/
def ticketResults (deps : Deps) (inp : SettleInput) (tickets : List TicketWithUser) :
    List TicketResult :=
  tickets.map (resultOf deps inp (prizesOf inp tickets))

/-- One wallet's prize so far, and one more winning ticket. -/
def addPrize (cur : Option PrizeJob) (r : TicketResult) : PrizeJob :=
  let bracket := r.bracket.getD 0
  let agg := cur.getD ⟨r.walletAddress, 0, bracket, []⟩
  { agg with
    amountScadBase := agg.amountScadBase + r.payoutScadBase
    bracket := max agg.bracket bracket
    ticketIds := agg.ticketIds ++ [r.ticket.id] }

/-- `prizeByWallet`, for the on-chain payouts. -/
def prizeJobsOf (inp : SettleInput) (results : List TicketResult) : List PrizeJob :=
  (groupBy (·.walletAddress) addPrize
    (results.filter fun r => r.won && inp.lotteryEnabled)).map (·.2)

/-! ## What is written -/

structure UserAgg where
  wagered : Nat
  won : Nat
  lost : Nat
  games : Nat
  biggest : Nat
  deriving DecidableEq

def addResult (cur : Option UserAgg) (r : TicketResult) : UserAgg :=
  let agg := cur.getD ⟨0, 0, 0, 0, 0⟩
  let netProfit := r.payoutLamports - r.ticket.costLamports
  { wagered := agg.wagered + r.ticket.costLamports
    won := agg.won + netProfit
    lost := agg.lost + (r.ticket.costLamports - r.payoutLamports)
    games := agg.games + 1
    biggest := max agg.biggest netProfit }

def perUser (results : List TicketResult) : List (UserId × UserAgg) :=
  groupBy (·.ticket.userId) addResult results

/-- The distinct results, with the ids of the tickets that have each. -/
structure TicketGroup where
  matchLen : Nat
  bracket : Option Nat
  payoutScadBase : Nat
  payoutLamports : Nat
  won : Bool
  ids : List EntryId
  deriving DecidableEq

def addId (cur : Option TicketGroup) (r : TicketResult) : TicketGroup :=
  let group := cur.getD
    ⟨r.matchLen, r.bracket, r.payoutScadBase, r.payoutLamports, r.won, []⟩
  { group with ids := group.ids ++ [r.ticket.id] }

def ticketUpdates (results : List TicketResult) : List TicketGroup :=
  (groupBy (fun r => (r.matchLen, r.bracket, r.payoutScadBase, r.won)) addId results).map (·.2)

/-- The Bet row of the `i`-th ticket. -/
def betOf (inp : SettleInput) (env : SettleEnv) (ri : TicketResult × Nat) : Bet where
  id := env.randomUUID ri.2
  userId := ri.1.ticket.userId
  gameType := .lottery
  amountLamports := ri.1.ticket.costLamports
  payoutLamports := ri.1.payoutLamports
  multiplier := none
  status := if ri.1.won then .won else .lost
  seedId := inp.seedId
  nonce := inp.nonce
  resultJson := .lottery inp.drawIndex inp.digits ri.1.ticket.digits ri.1.matchLen ri.1.bracket
    ri.1.payoutScadBase
    { serverSeed := inp.serverSeed
      serverSeedHash := inp.serverSeedHash
      clientSeed := inp.clientSeed
      nonce := inp.nonce
      onchainEntropy := none
      beaconRound := inp.beaconRound
      slotHash := some inp.slotHash
      entropySource := some inp.fairness }

def betRows (inp : SettleInput) (env : SettleEnv) (results : List TicketResult) : List Bet :=
  results.zipIdx.map (betOf inp env)

def feedOf (env : SettleEnv) (ri : TicketResult × Nat) : FeedJob :=
  ⟨ri.1.ticket.userId, env.randomUUID ri.2, ri.1.ticket.costLamports, ri.1.payoutLamports,
    ri.1.won⟩

/-- The result columns, written with the claim. -/
def drawnRow (inp : SettleInput) (env : SettleEnv) (tickets : List TicketWithUser)
    (d : LotteryDraw) : LotteryDraw :=
  { d with
    status := .drawn
    winningDigits := inp.digits
    slotHash := some inp.slotHash
    drawnAt := some env.now
    revealTxSignature := inp.revealTxSignature
    fairness := some inp.fairness
    beaconRound := inp.beaconRound
    totalPoolScadBase := poolOf inp tickets
    burnScadBase := (prizesOf inp tickets).burn
    bracketWinnerCounts := winnerCounts inp tickets
    bracketAmountsScadBase := (prizesOf inp tickets).bracketSlices
    bracketRolloverScadBase := (prizesOf inp tickets).bracketRollover }

/-! ## The closure -/

def SETTLE_WRITE_CHUNK : Nat := 1000

/-- The loop `for (i = 0; i < xs.length; i += n)` over `xs.slice(i, i + n)`. -/
def slicesFrom {α : Type} (n : Nat) : (fuel : Nat) → List α → List (List α)
  | 0, _ => []
  | fuel + 1, xs => if xs.isEmpty then [] else xs.take n :: slicesFrom n fuel (xs.drop n)

/-- The slices of a list, of `SETTLE_WRITE_CHUNK` elements each. -/
def slices {α : Type} (xs : List α) : List (List α) :=
  slicesFrom SETTLE_WRITE_CHUNK xs.length xs

/-- The variables assigned before the claim. -/
def Captured.setResults (deps : Deps) (inp : SettleInput) (tickets : List TicketWithUser)
    (v : Captured) : Captured :=
  let results := ticketResults deps inp tickets
  { v with
    ticketsLen := tickets.length
    bracketWinnerCounts := winnerCounts inp tickets
    totalPool := poolOf inp tickets
    burnScadBase := (prizesOf inp tickets).burn
    nextRollover := (prizesOf inp tickets).nextRollover
    winnersCount := (results.filter (·.won)).length
    topPrizeScadBase := (results.map (·.payoutScadBase)).foldl max 0
    prizeJobs := prizeJobsOf inp results }

def claimDraw (drawId : RoundId) (data : LotteryDraw → LotteryDraw) : DbTx Captured Nat :=
  Tx.statement (·.updateManyLotteryDraw drawId (·.status == .open) data)

/-- `if (a.biggest > 0)` -/
def raiseBest (userId : UserId) (biggest : Nat) : DbTx Captured Unit :=
  if 0 < biggest then Tx.update (·.raiseBiggestWin userId biggest) else pure ()

/-- The aggregates of one user. -/
def recordUser (deps : Deps) (env : SettleEnv) : UserId × UserAgg → DbTx Captured Unit
  | (userId, a) => do
      Tx.statement (·.updateUser userId fun u =>
        { u with
          totalWagered := u.totalWagered + a.wagered
          totalWon := u.totalWon + a.won
          totalLost := u.totalLost + a.lost
          gamesPlayed := u.gamesPlayed + a.games })
      raiseBest userId a.biggest
      accrue deps env.now userId a.wagered
      creditReferral deps userId a.wagered .lottery

/-- Play-money mode: the prize of one ticket. -/
def creditPrize (r : TicketResult) : DbTx Captured Unit :=
  if r.payoutLamports ≤ 0 then pure ()
  else do
    let _ ← applyBalanceDelta r.ticket.userId r.payoutLamports
      { reason := "lottery_prize", refType := "LotteryTicket", refId := some r.ticket.id }

def creditPrizes (inp : SettleInput) (results : List TicketResult) : DbTx Captured Unit :=
  if !inp.lotteryEnabled then Tx.each creditPrize results else pure ()

/-- `lotteryTicket.updateMany` on some ids. -/
def updateManyTickets (group : TicketGroup) (ids : List EntryId) (db : Db) : Db :=
  { db with lotteryTickets := db.lotteryTickets.map fun t =>
      if t.id ∈ ids then
        { t with
          matchLen := group.matchLen
          bracket := group.bracket
          payoutScadBase := group.payoutScadBase
          payoutLamports := group.payoutLamports
          won := group.won }
      else t }

def updateGroup (group : TicketGroup) : DbTx Captured Unit :=
  Tx.each (fun ids => Tx.update (updateManyTickets group ids))
    (slices group.ids)

/-- `bet.createMany` -/
def createManyBets (rows : List Bet) (db : Db) : Db :=
  { db with bets := rows.reverse ++ db.bets }

def revealSeed (inp : SettleInput) (env : SettleEnv) : DbTx Captured Unit :=
  Tx.statement (·.updateSeed inp.seedId fun s => { s with revealedAt := some env.now })

/-- What follows the claim. -/
def writeResults (deps : Deps) (inp : SettleInput) (env : SettleEnv)
    (results : List TicketResult) : DbTx Captured Unit := do
  Tx.assign fun v => { v with feedJobs := results.zipIdx.map (feedOf env) }
  Tx.each (recordUser deps env) (perUser results)
  creditPrizes inp results
  Tx.each updateGroup (ticketUpdates results)
  Tx.each (fun rows => Tx.update (createManyBets rows))
    (slices (betRows inp env results))
  revealSeed inp env

/-- The closure. -/
def settleTx (deps : Deps) (inp : SettleInput) (env : SettleEnv) : DbTx Captured Unit := do
  assertStillLeader env.isLeader "lottery"
  let tickets ← Tx.query (findTickets inp.drawId)
  Tx.assign (·.setResults deps inp tickets)
  let count ← claimDraw inp.drawId (drawnRow inp env tickets)
  assertRoundClaimed count "lottery" inp.drawId
  writeResults deps inp env (ticketResults deps inp tickets)

/-! # What a committed settle did -/

variable {γ : Type} {p : Db → γ} {deps : Deps} {inp : SettleInput} {env : SettleEnv}
variable {s t : TxState Captured Db TxError} {u : Unit}

/-! ## What the writes leave alone -/

theorem recordUser_keeps (hp : OffPlayers p) (ua : UserId × UserAgg) :
    Tx.Keeps p (recordUser deps env ua) := by
  obtain ⟨_, a⟩ := ua
  exact .bind (updateUser_keeps hp.users _ _) fun _ =>
    .bind (Tx.Keeps.ite (raiseBiggestWin_keeps hp.users _ _) (.pure _)) fun _ =>
      .bind (accrue_keeps hp.board _ _ _ _) fun _ =>
        creditReferral_keeps hp.referrals _ _ _ _

theorem creditPrizes_keeps (hp : OffPlayers p) (results : List TicketResult) :
    Tx.Keeps p (creditPrizes inp results) := by
  refine .ite (.each (fun r => ?_) _) (.pure _)
  exact .ite (.pure _) (.bind (applyBalanceDelta_keeps hp.movement _ _ _) fun _ => .pure _)

theorem updateGroup_keeps (hp : ∀ db group ids, p (updateManyTickets group ids db) = p db)
    (group : TicketGroup) : Tx.Keeps p (updateGroup group) :=
  .each (fun ids => .update fun db => hp db group ids) _

theorem revealSeed_keeps (hp : ∀ (db : Db) seeds, p { db with seeds := seeds } = p db) :
    Tx.Keeps p (revealSeed inp env) := by
  refine .statement ?_
  intro db a db' h
  obtain ⟨_, -, rfl⟩ := Db.updateSeed_ok h
  exact hp db _

theorem writeResults_keeps (hp : OffPlayers p)
    (htickets : ∀ db group ids, p (updateManyTickets group ids db) = p db)
    (hbets : ∀ db rows, p (createManyBets rows db) = p db)
    (hseeds : ∀ (db : Db) seeds, p { db with seeds := seeds } = p db)
    (results : List TicketResult) : Tx.Keeps p (writeResults deps inp env results) :=
  .bind (.assign _) fun _ => .bind (.each (recordUser_keeps hp) _) fun _ =>
    .bind (creditPrizes_keeps hp _) fun _ => .bind (.each (updateGroup_keeps htickets) _) fun _ =>
      .bind (.each (fun rows => .update fun db => hbets db rows) _) fun _ =>
        revealSeed_keeps hseeds

/-- The keys of the tickets: no update changes them. -/
def ticketKeys (db : Db) : List (RoundId × EntryId) :=
  db.lotteryTickets.map fun t => (t.drawId, t.id)

theorem updateManyTickets_keys (group : TicketGroup) (ids : List EntryId) (db : Db) :
    ticketKeys (updateManyTickets group ids db) = ticketKeys db := by
  simp only [ticketKeys, updateManyTickets, List.map_map]
  refine List.map_congr_left ?_
  intro ticket _
  simp only [Function.comp]
  split <;> rfl

/-! ## The Bet rows -/

/-- The slices, put together, are the list. -/
theorem flatten_slicesFrom {α : Type} {n : Nat} (hn : 0 < n) {fuel : Nat} {xs : List α}
    (h : xs.length ≤ fuel) : (slicesFrom n fuel xs).flatten = xs := by
  induction fuel generalizing xs with
  | zero =>
    have hnil : xs = [] := List.length_eq_zero_iff.mp (by omega)
    simp [slicesFrom, hnil]
  | succ fuel ih =>
    cases xs with
    | nil => simp [slicesFrom]
    | cons x xs =>
      have hrest : (slicesFrom n fuel ((x :: xs).drop n)).flatten = (x :: xs).drop n := by
        refine ih ?_
        simp only [List.length_drop, List.length_cons] at h ⊢
        omega
      simp [slicesFrom, hrest]

theorem flatten_slices {α : Type} (xs : List α) : (slices xs).flatten = xs :=
  flatten_slicesFrom (by decide) (le_refl _)

/-- The inserts, slice by slice, add all the rows. -/
theorem createSlices_bets {rows : List (List Bet)}
    (h : (Tx.each (fun rows => Tx.update (createManyBets rows)) rows).run s = .ok u t) :
    t.db.bets = rows.flatten.reverse ++ s.db.bets := by
  induction rows generalizing s with
  | nil =>
    obtain ⟨-, rfl⟩ := Tx.pure_eq_ok.mp h
    rfl
  | cons row rows ih =>
    obtain ⟨_, _, hfirst, hrest⟩ := Tx.bind_eq_ok.mp h
    have hdb := (Tx.update_ok hfirst).1
    rw [ih hrest, hdb]
    simp [createManyBets]

/-- One Bet row for each result. -/
theorem writeResults_bets {results : List TicketResult}
    (h : (writeResults deps inp env results).run s = .ok u t) :
    t.db.bets = (betRows inp env results).reverse ++ s.db.bets := by
  obtain ⟨_, _, hassign, h⟩ := Tx.bind_eq_ok.mp h
  obtain ⟨_, _, husers, h⟩ := Tx.bind_eq_ok.mp h
  obtain ⟨_, _, hprizes, h⟩ := Tx.bind_eq_ok.mp h
  obtain ⟨_, _, hgroups, h⟩ := Tx.bind_eq_ok.mp h
  obtain ⟨_, _, hinserts, hreveal⟩ := Tx.bind_eq_ok.mp h
  cases Tx.assign_eq_ok.mp hassign
  have hoff : OffPlayers Db.bets := fun _ _ _ _ _ => rfl
  have husersKeep := Tx.Keeps.each (recordUser_keeps hoff) _ _ _ _ husers
  have hprizesKeep := creditPrizes_keeps hoff _ _ _ _ hprizes
  have hgroupsKeep := Tx.Keeps.each (updateGroup_keeps (p := Db.bets)
    fun _ _ _ => rfl) _ _ _ _ hgroups
  have hrevealKeep := revealSeed_keeps (p := Db.bets) (fun _ _ => rfl) _ _ _ hreveal
  rw [hrevealKeep, createSlices_bets hinserts, flatten_slices, hgroupsKeep, hprizesKeep,
    husersKeep]

/-! ## The closure -/

/-- A draw that committed, over the tickets it read. -/
structure Settled (deps : Deps) (inp : SettleInput) (env : SettleEnv) (db db' : Db) : Prop where
  claimed : ∃ row, db.lotteryDraws inp.drawId = some row ∧ row.status = .open ∧
    db'.lotteryDraws = Function.update db.lotteryDraws inp.drawId
      (some (drawnRow inp env (findTickets inp.drawId db) row))
  keys : ticketKeys db' = ticketKeys db
  bets : db'.bets =
    (betRows inp env (ticketResults deps inp (findTickets inp.drawId db))).reverse ++ db.bets

/-- The claim of an open draw. -/
theorem claimDraw_ok {drawId : RoundId} {data : LotteryDraw → LotteryDraw} {count : Nat}
    (h : (claimDraw drawId data).run s = .ok count t) (hcount : count ≠ 0) :
    ∃ row, s.db.lotteryDraws drawId = some row ∧ row.status = .open ∧
      t.db = { s.db with
        lotteryDraws := Function.update s.db.lotteryDraws drawId (some (data row)) } := by
  obtain ⟨hf, -⟩ := Tx.statement_ok h
  simp only [Db.updateManyLotteryDraw, Except.ok.injEq, Prod.mk.injEq] at hf
  obtain ⟨rfl, hdb⟩ := hf
  obtain ⟨row, hrow, hg, htable⟩ := claim_ok hcount
  refine ⟨row, hrow, by simpa using hg, ?_⟩
  rw [← hdb, htable]

/-- Everything a settle that ended well did, up to the claim. -/
theorem settleTx_claimed (h : (settleTx deps inp env).run s = .ok u t) :
    env.isLeader = true ∧ ∃ (s₁ : TxState Captured Db TxError) (row : LotteryDraw),
      s.db.lotteryDraws inp.drawId = some row ∧ row.status = .open ∧
      s₁.db = { s.db with
        lotteryDraws := Function.update s.db.lotteryDraws inp.drawId
          (some (drawnRow inp env (findTickets inp.drawId s.db) row)) } ∧
      (writeResults deps inp env (ticketResults deps inp (findTickets inp.drawId s.db))).run s₁ =
        .ok u t := by
  obtain ⟨_, _, hleader, h⟩ := Tx.bind_eq_ok.mp h
  obtain ⟨_, _, hquery, h⟩ := Tx.bind_eq_ok.mp h
  obtain ⟨_, _, hassign, h⟩ := Tx.bind_eq_ok.mp h
  obtain ⟨_, _, hclaim, h⟩ := Tx.bind_eq_ok.mp h
  obtain ⟨_, s₅, hguard, hwrite⟩ := Tx.bind_eq_ok.mp h
  obtain ⟨hlead, rfl⟩ := assertStillLeader_ok hleader
  obtain ⟨rfl, hdb₂, -⟩ := Tx.query_ok hquery
  cases Tx.assign_eq_ok.mp hassign
  obtain ⟨hcount, rfl⟩ := assertRoundClaimed_ok hguard
  obtain ⟨row, hrow, hopen, hdb⟩ := claimDraw_ok hclaim hcount
  rw [hdb₂] at hrow hdb
  exact ⟨hlead, s₅, row, hrow, hopen, hdb, hwrite⟩

theorem settleTx_ok (h : (settleTx deps inp env).run s = .ok u t) :
    env.isLeader = true ∧ Settled deps inp env s.db t.db := by
  obtain ⟨hlead, _, row, hrow, hopen, hdb, hwrite⟩ := settleTx_claimed h
  have hdraws := writeResults_keeps (p := Db.lotteryDraws) (fun _ _ _ _ _ => rfl)
    (fun _ _ _ => rfl) (fun _ _ => rfl) (fun _ _ => rfl) _ _ _ _ hwrite
  have hkeys := writeResults_keeps (p := ticketKeys) (fun _ _ _ _ _ => rfl)
    (fun db group ids => updateManyTickets_keys group ids db) (fun _ _ => rfl) (fun _ _ => rfl)
    _ _ _ _ hwrite
  refine ⟨hlead, ⟨row, hrow, hopen, ?_⟩, ?_, ?_⟩
  · rw [hdraws, hdb]
  · rw [hkeys, hdb]
    rfl
  · rw [writeResults_bets hwrite, hdb]

/-- A settle leaves the tables of the other games alone. -/
theorem settleTx_keeps (hp : OffPlayers p)
    (hdraws : ∀ (db : Db) draws, p { db with lotteryDraws := draws } = p db)
    (htickets : ∀ (db : Db) tickets, p { db with lotteryTickets := tickets } = p db)
    (hbets : ∀ (db : Db) bets, p { db with bets := bets } = p db)
    (hseeds : ∀ (db : Db) seeds, p { db with seeds := seeds } = p db) :
    Tx.Keeps p (settleTx deps inp env) := by
  intro s u t h
  obtain ⟨-, _, _, -, -, hdb, hwrite⟩ := settleTx_claimed h
  have hkeep := writeResults_keeps hp (fun db _ _ => htickets db _) (fun db _ => hbets db _) hseeds
    _ _ _ _ hwrite
  rw [hkeep, hdb, hdraws]

end Scadium.Games.Lottery
