/-
Scadium.Games.Instant.Anchoring — a bet with `scadium_rng` live: its seed is
reserved, a round of the program is driven for it, and its outcome is
committed (`games/instant/instant-settle.ts`, `games/instant/stateful-round.ts`,
`solana/onchain-rng.service.ts`, `solana/chain.service.ts`).

`settleInstantBet` commits a Bet row and `startStatefulRound` an active
round; up to there they are one, and what is committed is the outcome that
the game computes from the seed. The checks that only refuse (the wager gate,
the balance, one active round for each game) are answers of the environment,
and so is `nextRoundId`, a clock and a counter.

A transaction whose confirmation is lost is in flight: it may land later, or
never. A read after a confirmed settle may fail, or be served by a node that
has not seen the settle. `opened` records for which bet a round was opened.
-/
import Scadium.Fairness.SeedManager
import Scadium.Programs.Rng

namespace Scadium.Games.Anchoring

open Scadium.Lib Scadium.Fair Scadium.Programs
open Scadium.Prisma (Bytes32 BetId UserId)
open Scadium.Fair.Derive (GameParams SeedContext)

inductive AnchoredGame where
  | dice | limbo | wheel | plinko | mines | hilo | tower | keno
  deriving DecidableEq

/-- `GAME_TYPE_INDEX` -/
def gameTypeIndex : AnchoredGame → Nat
  | .dice => 5
  | .limbo => 6
  | .wheel => 7
  | .plinko => 8
  | .mines => 9
  | .hilo => 10
  | .tower => 11
  | .keno => 12

def TARGET_SLOT_OFFSET : Nat := 3

/-- The slots `SlotHashes` goes back. -/
def SLOT_HASHES : Nat := 512

structure Request where
  userId : UserId
  gameType : AnchoredGame
  gameParams : GameParams
  deriving DecidableEq

/-- The hashes, and what a game makes of a seed (`resolve`, `build`). -/
structure Deps (Outcome : Type) where
  sha : Sha
  resolve : AnchoredGame → GameParams → SeedContext → Outcome

/-- A bet with its reserved seed, and the address its round gets. -/
structure Reserved where
  request : Request
  context : SeedContext
  key : Rng.RoundKey
  deriving DecidableEq

/-- What a call has still to do. -/
inductive Stage where
  | begin (request : Request)
  | currentSlot (b : Reserved)
  | rngOpenRound (b : Reserved) (targetSlot : Nat)
  | waitForSlot (b : Reserved)
  | rngSettleRound (b : Reserved)
  | getAccountInfo (b : Reserved)
  | commit (b : Reserved) (onchainEntropy : Option Bytes32)
  deriving DecidableEq

/-- A transaction the cosigner has signed. -/
inductive Tx where
  | openRound (key : Rng.RoundKey) (args : Rng.OpenRound)
  | settleRound (key : Rng.RoundKey) (serverSeed : String)
  deriving DecidableEq

/-- What is committed. -/
structure Bet (Outcome : Type) where
  reserved : Reserved
  onchainEntropy : Option Bytes32
  outcome : Outcome
  deriving DecidableEq

variable {Outcome : Type} {src : SeedSource String Bytes32}

structure State (Outcome : Type) (src : SeedSource String Bytes32) where
  seeds : Fairness.SeedStore src
  cluster : Rng.Cluster
  inFlight : Table BetId Tx
  opened : Table BetId Rng.RoundKey
  calls : Table BetId Stage
  bets : Table BetId (Bet Outcome)
  /-- the ids that are taken -/
  started : List BetId

/-- How the account of a round is read. -/
inductive Read where
  | failed
  /-- as it was before the settle -/
  | stale
  | current
  deriving DecidableEq

/-- What the environment answers in a step. -/
structure Answer where
  /-- the gate or the transaction refuses -/
  refused : Bool
  roundId : Nat
  /-- the node answers; a transaction is confirmed or found to fail -/
  replied : Bool
  slot : Nat
  read : Read

inductive Event where
  | start (id : BetId) (request : Request)
  | run (id : BetId) (answer : Answer)
  | kill (id : BetId)
  /-- a transaction whose confirmation was lost -/
  | land (id : BetId)
  | produceSlot (slot : Nat) (hash : Bytes32)
  | setClientSeed (userId : UserId) (clientSeed : JsString)
  | rotateServerSeed (userId : UserId) (activeRound : Bool)

/-! ## Seeds -/

/-- What `reserveSeedContext` returns, for the derivation. -/
def contextOf (ctx : Fairness.SeedContext String Bytes32) : SeedContext :=
  ⟨ctx.serverSeed, String.ofList ctx.clientSeed, ctx.nonce⟩

/-- The arguments of `open_round`. -/
def Reserved.args (sha : Sha) (b : Reserved) (targetSlot : Nat) : Rng.OpenRound where
  server_seed_hash := Derive.commitServerSeed sha b.context.serverSeed
  client_seed := padClientSeed32 b.context.clientSeed
  game_params_hash := Derive.gameParamsHash sha b.request.gameParams
  nonce := b.context.nonce % 2 ^ 32
  target_slot := targetSlot

/-- The outcome with this entropy, or from the seeds alone. -/
def Reserved.outcome (deps : Deps Outcome) (b : Reserved) (onchainEntropy : Option Bytes32) :
    Outcome :=
  deps.resolve b.request.gameType b.request.gameParams
    (Derive.deriveSeedContext deps.sha b.context onchainEntropy b.request.gameParams)

/-! ## Steps -/

namespace State

variable (a : State Outcome src)

/-- A transaction of the bet is processed; `none` if the program refuses it. -/
def process (sha : Sha) (id : BetId) : Tx → Option (State Outcome src)
  | .openRound key args =>
      match Rng.open_round a.cluster key args with
      | .ok cluster => some { a with cluster := cluster, opened := a.opened.set id key }
      | .error _ => none
  | .settleRound key serverSeed =>
      match Rng.settle_round sha a.cluster key (utf8 serverSeed) with
      | .ok cluster => some { a with cluster := cluster }
      | .error _ => none

/-- `send`: the state, and whether a signature came back. -/
def send (sha : Sha) (answer : Answer) (id : BetId) (tx : Tx) : State Outcome src × Bool :=
  if answer.replied then
    match a.process sha id tx with
    | some a' => (a', true)
    | none => (a, false)
  else ({ a with inFlight := a.inFlight.set id tx }, false)

/-- The entropy as it is read from the account. -/
def readEntropy (key : Rng.RoundKey) : Read → Option Bytes32
  | .failed => none
  | .stale => (a.cluster.rounds.get key).map fun round =>
      (Rng.Round.init round.opened).final_entropy
  | .current => (a.cluster.rounds.get key).map (·.final_entropy)

/-- One step of a call. -/
def stage (deps : Deps Outcome) (answer : Answer) (id : BetId) :
    Stage → State Outcome src × Option Stage
  | .begin request =>
      if answer.refused then (a, none)
      else
        let reserved := a.seeds.reserveSeedContext request.userId
        ({ a with seeds := reserved.2 },
          some (.currentSlot
            ⟨request, contextOf reserved.1, ⟨gameTypeIndex request.gameType, answer.roundId⟩⟩))
  | .currentSlot b =>
      if answer.replied then (a, some (.rngOpenRound b (answer.slot + TARGET_SLOT_OFFSET)))
      else (a, some (.commit b none))
  | .rngOpenRound b targetSlot =>
      let sent := a.send deps.sha answer id (.openRound b.key (b.args deps.sha targetSlot))
      (sent.1, some (if sent.2 then .waitForSlot b else .commit b none))
  | .waitForSlot b =>
      (a, some (if answer.replied then .rngSettleRound b else .commit b none))
  | .rngSettleRound b =>
      let sent := a.send deps.sha answer id (.settleRound b.key b.context.serverSeed)
      (sent.1, some (if sent.2 then .getAccountInfo b else .commit b none))
  | .getAccountInfo b => (a, some (.commit b (a.readEntropy b.key answer.read)))
  | .commit b onchainEntropy =>
      if answer.refused then (a, none)
      else
        ({ a with bets := a.bets.set id ⟨b, onchainEntropy, b.outcome deps onchainEntropy⟩ }, none)

/-- The calls after a step of the call `id`. -/
def put (id : BetId) : Option Stage → State Outcome src
  | some stage => { a with calls := a.calls.set id stage }
  | none => { a with calls := a.calls.erase id }

end State

def step (deps : Deps Outcome) (a : State Outcome src) : Event → Option (State Outcome src)
  | .start id request =>
      if id ∈ a.started then none
      else some { a with calls := a.calls.set id (.begin request), started := id :: a.started }
  | .run id answer =>
      (a.calls.get id).map fun stage =>
        let r := a.stage deps answer id stage
        r.1.put id r.2
  | .kill id => some { a with calls := a.calls.erase id }
  | .land id =>
      (a.inFlight.get id).bind fun tx =>
        let landed := { a with inFlight := a.inFlight.erase id }
        some ((landed.process deps.sha id tx).getD landed)
  | .produceSlot slot hash =>
      if a.cluster.slot < slot then
        some { a with
          cluster :=
            { a.cluster with
              slot := slot
              slot_hashes := ((a.cluster.slot, hash) :: a.cluster.slot_hashes).take SLOT_HASHES } }
      else none
  | .setClientSeed userId clientSeed =>
      some { a with seeds := (a.seeds.setClientSeed userId clientSeed).2 }
  | .rotateServerSeed userId activeRound =>
      some { a with seeds := (a.seeds.rotateServerSeed userId activeRound).2 }

/-- No round and no bet. -/
def State.initial (Outcome : Type) (src : SeedSource String Bytes32) : State Outcome src where
  seeds := .empty src
  cluster := ⟨0, [], .empty⟩
  inFlight := .empty
  opened := .empty
  calls := .empty
  bets := .empty
  started := []

end Scadium.Games.Anchoring
