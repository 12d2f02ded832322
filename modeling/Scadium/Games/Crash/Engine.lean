/-
Scadium.Games.Crash.Engine — the round in memory
(`games/crash/crash.engine.ts`): what `startNewRound` installs, and
`placeBet`, by which a bet enters the round only while its betting window is
open. Then the transactions of `CrashService.placeBet`
(`games/crash/crash.service.ts`): the debit with the durable `CrashBet` row,
and what follows when the engine refuses the bet, the refund and the deletion
of the row.

The engine's `placeBet` is synchronous, so it is one step of the engine whatever else
is in flight. The public identity of a bet (`playerId`, `player`) and the
gateway message are left out.

The debit does not look at the round row beyond its foreign key: whether
the round still takes bets is the engine's decision, after the commit. The
row's id is the number of the call that created it.
-/
import Scadium.Games.Crash.Settle
import Scadium.Prisma.Idempotency

namespace Scadium.Games.Crash

open Scadium.Common (ExposureGuard)
open Scadium.Lib Scadium.Prisma Scadium.Shared

def DRAINING_MESSAGE : String := "The server is restarting — betting resumes in a moment"

/-- What the awaited calls of `startNewRound` return: the ids of the rows,
the seeds, the bust point when it is not deferred, and the bankroll. -/
structure Created where
  id : RoundId
  seedId : SeedId
  serverSeed : String
  serverSeedHash : String
  clientSeed : String
  bustPoint : Rat
  exposure : Option ExposureGuard
  deriving DecidableEq

/-- The round that `startNewRound` installs. -/
def Created.round (created : Created) (openedAt : Time) (beaconRound : Option Int) : Round where
  id := created.id
  seedId := created.seedId
  serverSeed := created.serverSeed
  serverSeedHash := created.serverSeedHash
  clientSeed := created.clientSeed
  nonce := 0
  bustPoint := created.bustPoint
  phase := .waiting
  startedAt := none
  waitingStartedAt := some openedAt
  bets := []
  beaconRound := beaconRound
  betsClosed := false
  exposure := created.exposure

/-- The argument of `placeBet`. A queued bet names no round. -/
structure BetParams where
  roundId : Option RoundId
  userId : UserId
  username : Option String
  walletAddress : String
  amountLamports : Nat
  autoCashout : Option Rat
  deriving DecidableEq

/-- The bet as the round holds it. -/
def BetParams.live (params : BetParams) : LiveBet where
  userId := params.userId
  username := params.username
  walletAddress := params.walletAddress
  amountLamports := params.amountLamports
  originalAmountLamports := params.amountLamports
  payoutLamports := 0
  autoCashout := params.autoCashout
  cashedOutAt := none

/-- `this.current.bets.has(userId)` -/
def Round.has (round : Round) (userId : UserId) : Bool := round.bets.any (·.userId == userId)

/-- `this.current.bets.delete(userId)` -/
def Round.delete (round : Round) (userId : UserId) : Round :=
  { round with bets := round.bets.filter (·.userId != userId) }

/-- The betting window of the round is open. -/
def Round.isOpen (round : Round) : Bool := round.phase == .waiting && !round.betsClosed

/-- The house exposure cap: `none` when the bet does not fit, else the guard
after the reservation. Play-money mode has no cap. -/
def reserveExposure (chainEnabled : Bool) (exposure : Option ExposureGuard)
    (params : BetParams) : Option (Option ExposureGuard) :=
  match chainEnabled, exposure with
  | true, some guard =>
      (guard.reserve (ExposureGuard.potential params.amountLamports
        (params.autoCashout.getD CRASH.MAX_CASHOUT_MULTIPLIER))).map some
  | _, _ => some exposure

/-- `placeBet`: the round with the bet in it, or the message thrown. -/
def placeBet (chainEnabled draining : Bool) (current : Round) (params : BetParams) :
    Except String Round :=
  if draining then .error DRAINING_MESSAGE
  else if current.phase ≠ .waiting ∨ current.betsClosed then .error "Betting window closed"
  else if params.roundId.any (· != current.id) then .error "Betting window closed"
  else if current.has params.userId then .error "You already have a bet in this round"
  else
    match reserveExposure chainEnabled current.exposure params with
    | none => .error "Round exposure limit reached — try a smaller bet or the next round"
    | some exposure =>
        .ok { current with bets := current.bets ++ [params.live], exposure := exposure }

/-! ## What an accepted bet says -/

section Accepted

variable {chainEnabled draining : Bool} {current next : Round} {params : BetParams}

/-- Everything `placeBet` checks, and all it changes. -/
theorem placeBet_ok (h : placeBet chainEnabled draining current params = .ok next) :
    draining = false ∧ current.isOpen = true ∧ (∀ id, params.roundId = some id → id = current.id) ∧
      current.has params.userId = false ∧
      ∃ exposure, reserveExposure chainEnabled current.exposure params = some exposure ∧
        next = { current with bets := current.bets ++ [params.live], exposure := exposure } := by
  unfold placeBet at h
  split at h
  · cases h
  · rename_i hdrain
    split at h
    · cases h
    · rename_i hopen
      split at h
      · cases h
      · rename_i hid
        split at h
        · cases h
        · rename_i hhas
          split at h
          · cases h
          · rename_i exposure hreserve
            cases h
            refine ⟨by simpa using hdrain, ?_, ?_, by simpa using hhas, exposure, hreserve, rfl⟩
            · simpa [Round.isOpen] using hopen
            · intro id heq
              simpa [heq] using hid

/-- The converse: these are the only checks. -/
theorem placeBet_accepts {exposure : Option ExposureGuard} (hdrain : draining = false)
    (hopen : current.isOpen = true) (hid : ∀ id, params.roundId = some id → id = current.id)
    (hhas : current.has params.userId = false)
    (hreserve : reserveExposure chainEnabled current.exposure params = some exposure) :
    placeBet chainEnabled draining current params =
      .ok { current with bets := current.bets ++ [params.live], exposure := exposure } := by
  have hwaiting : ¬ (current.phase ≠ .waiting ∨ current.betsClosed = true) := by
    simpa [Round.isOpen] using hopen
  have hmatch : params.roundId.any (· != current.id) = false := by
    cases h : params.roundId with
    | none => rfl
    | some id => simpa [h] using hid id h
  simp [placeBet, hdrain, hwaiting, hmatch, hhas, hreserve]

end Accepted

/-! # The transactions of a bet -/

/-! ## Before the transaction -/

/-- A call that has passed the checks; `roundId` is the engine's round when
it did. -/
structure BetCall where
  roundId : RoundId
  userId : UserId
  username : Option String
  walletAddress : String
  amountLamports : Nat
  autoCashout : Option Rat
  key : Option String
  inRange : CRASH.MIN_BET_LAMPORTS ≤ amountLamports ∧ amountLamports ≤ CRASH.MAX_BET_LAMPORTS

/-- What the engine is asked. -/
def BetCall.params (call : BetCall) : BetParams where
  roundId := some call.roundId
  userId := call.userId
  username := call.username
  walletAddress := call.walletAddress
  amountLamports := call.amountLamports
  autoCashout := call.autoCashout

/-! ## The transactions -/

def p2003 : TxError := .prisma "P2003" none "Foreign key constraint failed"

/-- `crashBet.createMany` with `skipDuplicates`, of one row. -/
def createManyCrashBet (row : CrashBet) (db : Db) : Except TxError (Nat × Db) :=
  match db.crashRounds row.roundId with
  | none => .error p2003
  | some _ =>
      if db.crashBets.any fun b => b.id == row.id || isBetOf row.roundId row.userId b then
        .ok (0, db)
      else .ok (1, { db with crashBets := row :: db.crashBets })

/-- The durable row: the whole stake rides. -/
def BetCall.row (call : BetCall) (id : EntryId) : CrashBet where
  id := id
  roundId := call.roundId
  userId := call.userId
  amountLamports := call.amountLamports
  remainingLamports := call.amountLamports
  autoCashoutMultiplier := call.autoCashout
  cashoutMultiplier := none
  payoutLamports := 0
  won := false

def BetCall.debit (call : BetCall) : DeltaMeta :=
  { reason := "crash_bet", refType := "CrashRound", refId := some call.roundId }

def BetCall.refund (call : BetCall) : DeltaMeta :=
  { reason := "refund", refType := "CrashRound", refId := some call.roundId }

inductive BetOutcome where
  | replayed (response : String)
  | debited
  deriving DecidableEq

/-- The transaction of a call whose key is not a replay. -/
def debitBet (call : BetCall) (id : EntryId) : DbTx Unit BetOutcome := do
  let _ ← applyBalanceDelta call.userId (-(call.amountLamports : Int)) call.debit
  let count ← Tx.statement (createManyCrashBet (call.row id))
  if count = 0 then throw (.badRequest "You already have a bet in this round")
  else pure .debited

def betTx (call : BetCall) (id : EntryId) : DbTx Unit BetOutcome := do
  let replay ← claimIdempotency call.userId "crash_bet" call.key
  match replay with
  | some response => pure (.replayed response)
  | none => debitBet call id

/-- The refund of a refused bet. -/
def refundTx (call : BetCall) : DbTx Unit Int :=
  applyBalanceDelta call.userId call.amountLamports call.refund

/-- `crashBet.deleteMany({ where: { roundId, userId } })` -/
def deleteManyCrashBet (roundId : RoundId) (userId : UserId) (db : Db) : Db :=
  { db with crashBets := db.crashBets.filter fun b => !isBetOf roundId userId b }

/-! ## What they did -/

@[simp] theorem isBetOf_iff {roundId : RoundId} {userId : UserId} {b : CrashBet} :
    isBetOf roundId userId b = true ↔ b.roundId = roundId ∧ b.userId = userId := by
  simp [isBetOf]

/-- The tables that the crash game settles on. -/
def crashTables (db : Db) := (db.crashRounds, db.crashBets, db.bets)

/-- A committed debit: the row is new, by its id and by (round, user). -/
structure Debited (call : BetCall) (id : EntryId) (db db' : Db) : Prop where
  exists_round : ∃ row, db.crashRounds call.roundId = some row
  fresh : ∀ b ∈ db.crashBets, b.id ≠ id ∧ ¬ (b.roundId = call.roundId ∧ b.userId = call.userId)
  rows : db'.crashBets = call.row id :: db.crashBets
  rounds : db'.crashRounds = db.crashRounds
  bets : db'.bets = db.bets
  posts : Posts [call.debit.posting call.userId (-(call.amountLamports : Int))] db db'

variable {call : BetCall} {id : EntryId} {s t : TxState Unit Db TxError}

/-- A row was created, since the count is not 0. -/
theorem createManyCrashBet_ok {row : CrashBet} {db db' : Db} {count : Nat}
    (h : createManyCrashBet row db = .ok (count, db')) (hcount : count ≠ 0) :
    (∃ r, db.crashRounds row.roundId = some r) ∧
      (∀ b ∈ db.crashBets, b.id ≠ row.id ∧ ¬ (b.roundId = row.roundId ∧ b.userId = row.userId)) ∧
      db' = { db with crashBets := row :: db.crashBets } := by
  unfold createManyCrashBet at h
  split at h
  · cases h
  · rename_i r hround
    split at h
    · cases h
      exact absurd rfl hcount
    · rename_i hfresh
      cases h
      refine ⟨⟨r, hround⟩, ?_, rfl⟩
      intro b hb
      simp only [List.any_eq_true, Bool.or_eq_true, beq_iff_eq, isBetOf_iff, not_exists,
        not_and, not_or] at hfresh
      have hnot := hfresh b hb
      exact ⟨hnot.1, fun ⟨hround, huser⟩ => hnot.2 hround huser⟩

theorem debitBet_ok {outcome : BetOutcome} (h : (debitBet call id).run s = .ok outcome t) :
    outcome = .debited ∧ Debited call id s.db t.db := by
  obtain ⟨_, s₁, hdebit, h⟩ := Tx.bind_eq_ok.mp h
  obtain ⟨_, s₂, hcreate, h⟩ := Tx.bind_eq_ok.mp h
  split at h
  case isTrue => exact absurd h Tx.throw_eq_ok.mp
  case isFalse hcount =>
    obtain ⟨rfl, rfl⟩ := Tx.pure_eq_ok.mp h
    obtain ⟨hround, hfresh, hdb⟩ := createManyCrashBet_ok (Tx.statement_ok hcreate).1 hcount
    have hkeeps : crashTables s₁.db = crashTables s.db :=
      applyBalanceDelta_keeps (p := crashTables) (fun _ _ _ => rfl) _ _ _ _ _ _ hdebit
    obtain ⟨hrounds, hrows, hbets⟩ : s₁.db.crashRounds = s.db.crashRounds ∧
        s₁.db.crashBets = s.db.crashBets ∧ s₁.db.bets = s.db.bets := by
      simpa [crashTables] using hkeeps
    rw [hrounds] at hround
    rw [hrows] at hfresh
    have hinsert : Quiet s₁.db s₂.db := by
      rw [hdb]
      exact Posts.of_eq rfl rfl
    refine ⟨rfl, hround, hfresh, ?_, ?_, ?_, (applyBalanceDelta_posts hdebit).trans_quiet hinsert⟩
    · rw [hdb, hrows]
    · rw [hdb, hrounds]
    · rw [hdb, hbets]

/-- A committed call either replays, and changes nothing, or is debited. -/
theorem betTx_ok {outcome : BetOutcome} (h : (betTx call id).run s = .ok outcome t) :
    (∃ response, outcome = .replayed response ∧ t.db = s.db) ∨
      (outcome = .debited ∧ Debited call id s.db t.db) := by
  obtain ⟨replay, s₁, hclaim, h⟩ := Tx.bind_eq_ok.mp h
  cases replay with
  | some response =>
    obtain ⟨rfl, rfl⟩ := Tx.pure_eq_ok.mp h
    exact .inl ⟨response, rfl, claimIdempotency_replay hclaim⟩
  | none =>
    obtain ⟨rfl, hdebited⟩ := debitBet_ok h
    have hkeeps : crashTables s₁.db = crashTables s.db :=
      claimIdempotency_keeps (p := crashTables) (fun _ _ => rfl) _ _ _ _ _ _ hclaim
    obtain ⟨hrounds, hrows, hbets⟩ : s₁.db.crashRounds = s.db.crashRounds ∧
        s₁.db.crashBets = s.db.crashBets ∧ s₁.db.bets = s.db.bets := by
      simpa [crashTables] using hkeeps
    have hquiet : Quiet s.db s₁.db :=
      Posts.of_keeps (claimIdempotency_keeps (fun _ _ => rfl) _ _ _) hclaim
    exact .inr ⟨rfl,
      { exists_round := hrounds ▸ hdebited.exists_round
        fresh := hrows ▸ hdebited.fresh
        rows := hrows ▸ hdebited.rows
        rounds := hdebited.rounds.trans hrounds
        bets := hdebited.bets.trans hbets
        posts := hquiet.quiet_trans hdebited.posts }⟩

/-- A committed refund pays the whole stake back, and nothing else. -/
theorem refundTx_ok {a : Int} (h : (refundTx call).run s = .ok a t) :
    crashTables t.db = crashTables s.db ∧
      Posts [call.refund.posting call.userId call.amountLamports] s.db t.db :=
  ⟨applyBalanceDelta_keeps (p := crashTables) (fun _ _ _ => rfl) _ _ _ _ _ _ h,
    applyBalanceDelta_posts h⟩

end Scadium.Games.Crash
