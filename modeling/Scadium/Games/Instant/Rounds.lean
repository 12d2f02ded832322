/-
Scadium.Games.Instant.Rounds — rounds of mines, hilo and tower with the money
(`games/instant/stateful-round.ts`).

The rounds, the starts under way and the seeds are those of
`Instant.StatefulRound`; here are the users and the ledger with them, what the
calls return, and the moves that were committed. A start or a move is one
serializable transaction: concurrent ones take effect in some order, one after
the other, and an attempt that loses a race changes nothing.

Between any two steps other parts of the program move balances, under other
`refType`s.

Left out are the wagering gate, the accrual and the referral hooks, and the
live feed.
-/
import Scadium.Games.Instant.Boards
import Scadium.Games.WagerHooks

namespace Scadium.Games.Instant

open Scadium.Fair Scadium.Fairness Scadium.Prisma

variable {Seed Digest : Type}

/-- The derivations the games start from. -/
structure Code (Seed : Type) where
  floatsFromHmac : Floats Seed
  rngEntropy : Seed → JsString → Bytes32 → Nat → Bytes32 → Seed
  gameParamsHash : StartParams → Bytes32
  multipliers : Multipliers

def Code.games (code : Code Seed) : GameCode Seed Json := ⟨code.rngEntropy, .settled⟩

abbrev Round (Seed Digest : Type) := InstantRound Seed Digest Json

/-! ## What is returned -/

/-- Masked view of a round in progress. -/
structure RoundView (Digest : Type) where
  roundId : RoundId
  gameType : StatefulGame
  status : RoundStatus
  stakeLamports : Nat
  multiplier : ℚ
  state : Json
  fairness : RoundFairness Digest

def viewOf (round : Round Seed Digest) : RoundView Digest where
  roundId := round.id
  gameType := round.gameType
  status := round.status
  stakeLamports := round.stakeLamports
  multiplier := round.multiplier
  state := round.stateJson.visible
  fairness := round.fairness

/-- Terminal settle result. -/
structure RoundSettleResult (Digest : Type) where
  roundId : RoundId
  betId : BetId
  gameType : StatefulGame
  status : RoundStatus
  stakeLamports : Nat
  payoutLamports : Nat
  multiplier : ℚ
  won : Bool
  balanceLamports : Int
  result : Json
  fairness : RoundFairness Digest

/-- The `Bet` row of a settled round. -/
structure InstantBet where
  id : BetId
  userId : UserId
  gameType : StatefulGame
  amountLamports : Nat
  payoutLamports : Nat
  multiplier : ℚ
  status : BetStatus
  nonce : Nat
  resultJson : Json

/-! ## The state -/

structure Rounds (src : SeedSource Seed Digest) where
  base : State src Json
  db : Db
  bets : List InstantBet
  /-- The committed moves of the rounds, newest first. -/
  moves : List (RoundId × Move)
  views : List (RoundView Digest)
  settles : List (RoundSettleResult Digest)

variable {src : SeedSource Seed Digest}

def Rounds.init (src : SeedSource Seed Digest) (users : UserId → Option User) : Rounds src where
  base := State.init src Json
  db := { Db.empty with users := users }
  bets := []
  moves := []
  views := []
  settles := []

/-- The committed moves of one round, newest first. -/
def Rounds.movesOf (s : Rounds src) (id : RoundId) : List Move :=
  (s.moves.filter fun m => m.1 = id).map (·.2)

def betMeta (game : StatefulGame) : DeltaMeta := ⟨s!"{game.name}_bet", "InstantRound", none, .jeton, none⟩

def settleMeta (game : StatefulGame) (id : RoundId) : DeltaMeta :=
  ⟨s!"{game.name}_settle", "InstantRound", some id, .jeton, none⟩

/-! ## Starts -/

/-- The transaction of a start. -/
def startRound (code : Code Seed) (s : Rounds src) (call : StartCall Seed Digest Json)
    (reserved : Option (SeedContext Seed Digest)) (onchainEntropy : Option Bytes32) (id : RoundId) :
    Committed (Rounds src) := do
  Committed.ensure (s.base.inProgress call.userId call.gameType = false)
    (.conflict s!"a {call.gameType.name} round is already in progress")
  let db ← Committed.moveBalance s.db call.userId (-(call.stakeLamports : Int))
    (betMeta call.gameType)
  match startTx code.games s.base call reserved onchainEntropy id true with
  | .error message => .error (.conflict message)
  | .ok base =>
      let round := openedRound code.games call
        (reserved.getD (s.base.store.consumeNonce call.userId).1) onchainEntropy id
      .ok { s with
        base := base
        db := db
        views := viewOf round :: s.views }

/-! ## Moves -/

/-- A round that is the user's, of this game and active. -/
def findActive (s : Rounds src) (userId : UserId) (roundId : RoundId) (gameType : StatefulGame) :
    Committed (Round Seed Digest) := do
  let round ← Committed.orThrow (s.base.rounds.find? (·.id == roundId)) (.notFound "round not found")
  Committed.ensure (round.userId = userId ∧ round.gameType = gameType) (.notFound "round not found")
  Committed.ensure (round.status = .active) (.conflict "round is no longer active")
  return round

/-- The round's row after a step of its game. -/
def Rounds.updateRound (code : Code Seed) (s : Rounds src) (roundId : RoundId)
    (step : StepResult Json) : State src Json :=
  { s.base with
    rounds := s.base.rounds.map fun r => if r.id = roundId then r.advance code.games step else r }

/-- The payout, if there is one. -/
def creditPayout (db : Db) (round : Round Seed Digest) (payout : Nat) : Committed Db :=
  if 0 < payout then
    Committed.moveBalance db round.userId payout (settleMeta round.gameType round.id)
  else .ok db

/-- The aggregates of a settled round. -/
def recordSettle (db : Db) (userId : UserId) (stake : Nat) (netProfit : Int) : Committed Db := do
  let (_, db) ← db.updateUser userId (recordWager stake netProfit)
  return db.raiseBiggestWin userId netProfit

/-- The terminal part of `advanceStatefulRound`. -/
def settleRound (code : Code Seed) (s : Rounds src) (move : Move) (round : Round Seed Digest)
    (stepWon : Bool) (multiplier : ℚ) (resultJson : Json) (betId : BetId) :
    Committed (Rounds src) := do
  let stake := round.stakeLamports
  let payout := payoutLamports stake stepWon multiplier
  let netProfit : Int := payout - stake
  let won := stepWon && decide (0 < netProfit)
  let db ← creditPayout s.db round payout
  let db ← recordSettle db round.userId stake netProfit
  let user ← Committed.orThrow (db.users round.userId) p2025
  return { s with
    base := s.updateRound code round.id (.settle stepWon multiplier resultJson)
    db := db
    bets :=
      { id := betId
        userId := round.userId
        gameType := round.gameType
        amountLamports := stake
        payoutLamports := payout
        multiplier := multiplier
        status := if won then .won else .lost
        nonce := round.nonce
        resultJson := resultJson } :: s.bets
    moves := (round.id, move) :: s.moves
    settles :=
      { roundId := round.id
        betId := betId
        gameType := round.gameType
        status := if won then .won else .lost
        stakeLamports := stake
        payoutLamports := payout
        multiplier := multiplier
        won := won
        balanceLamports := user.balance .jeton
        result := resultJson
        fairness := round.fairness } :: s.settles }

/-- `pick`, `guess` and `cashout`: the checks, and `advanceStatefulRound`. -/
def playMove (code : Code Seed) (s : Rounds src) (userId : UserId) (roundId : RoundId) (move : Move)
    (betId : BetId) : Committed (Rounds src) := do
  move.check
  let round ← findActive s userId roundId move.game
  match ← move.apply code.multipliers round.stateJson with
  | .goesOn state multiplier =>
      return { s with
        base := s.updateRound code round.id (.goesOn state multiplier)
        moves := (round.id, move) :: s.moves
        views :=
          viewOf (round.advance code.games (.goesOn state multiplier)) :: s.views }
  | .settle won multiplier resultJson =>
      settleRound code s move round won multiplier resultJson betId

/-- `getActiveRound` -/
def getActiveRound (s : Rounds src) (userId : UserId) (gameType : StatefulGame) :
    Option (RoundView Digest) :=
  (s.base.rounds.reverse.find? fun r =>
    r.userId == userId && r.gameType == gameType && r.status == .active).map viewOf

/-! ## Steps -/

inductive Action where
  | start (userId : UserId) (params : StartParams) (amountLamports : Nat)
  /-- The RNG is live and the seed is reserved, or it is not. -/
  | reserve (i : Nat)
  | offchain (i : Nat)
  /-- `roundEntropy` returns; null when it failed. -/
  | entropy (i : Nat) (onchainEntropy : Option Bytes32)
  | startTx (i : Nat) (id : RoundId)
  /-- A statement of a start fails, or the process stops in it. -/
  | fail (i : Nat)
  | move (userId : UserId) (roundId : RoundId) (move : Move) (betId : BetId)
  | active (userId : UserId) (gameType : StatefulGame)
  | getOrCreateActivePair (userId : UserId)
  | consumeNonce (userId : UserId)
  | setClientSeed (userId : UserId) (clientSeed : JsString)
  | rotateServerSeed (userId : UserId)
  /-- Another part of the program moves a balance. -/
  | moveBalance (userId : UserId) (delta : Int) (info : DeltaMeta)

/-- The steps of `Instant.StatefulRound` that touch no money. -/
def Action.event (code : Code Seed) : Action → Option (Event Seed Digest Json)
  | .start userId params amountLamports =>
      some (.start userId params.game amountLamports (code.gameParamsHash params)
        (params.build code.floatsFromHmac))
  | .reserve i => some (.reserve i)
  | .offchain i => some (.offchain i)
  | .entropy i onchainEntropy => some (.entropy i onchainEntropy)
  | .fail i => some (.fail i)
  | .getOrCreateActivePair userId => some (.getOrCreateActivePair userId)
  | .consumeNonce userId => some (.consumeNonce userId)
  | .setClientSeed userId clientSeed => some (.setClientSeed userId clientSeed)
  | .rotateServerSeed userId => some (.rotateServerSeed userId)
  | _ => none

def liftBase (code : Code Seed) (s : Rounds src) (e : Option (Event Seed Digest Json)) :
    Option (Rounds src) :=
  match e with
  | none => none
  | some e => (step code.games s.base e).map fun base => { s with base := base }

/-- What a transaction left: nothing when it threw. -/
def committed (s : Rounds src) (result : Committed (Rounds src)) : Rounds src :=
  match result with
  | .ok s' => s'
  | .error _ => s

/-- One step. -/
def act (code : Code Seed) (s : Rounds src) (a : Action) : Option (Rounds src) :=
  match a with
  | .start _ params amountLamports =>
      match params.check amountLamports with
      | .error _ => some s
      | .ok _ => liftBase code s (a.event code)
  | .startTx i id =>
      match s.base.starts[i]? with
      | some call =>
          match call.stage with
          | .ready reserved onchainEntropy =>
              if s.base.rounds.any (·.id == id) then none
              else
                let s' := committed s (startRound code s call reserved onchainEntropy id)
                some { s' with base := s'.base.setStage i call .done }
          | _ => none
      | none => none
  | .move userId roundId move betId =>
    some (committed s (playMove code s userId roundId move betId))
  | .active userId gameType =>
      match getActiveRound s userId gameType with
      | some view => some { s with views := view :: s.views }
      | none => some s
  | .moveBalance userId delta info =>
      if info.refType = "InstantRound" then none
      else
        match Committed.moveBalance s.db userId delta info with
        | .ok db => some { s with db := db }
        | .error _ => some s
  | _ => liftBase code s (a.event code)

end Scadium.Games.Instant
