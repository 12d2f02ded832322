/-
Scadium.Games.Instant.StatefulRound — the stateful games: mines, hilo and
tower (`games/instant/stateful-round.ts`), with the seed manager they draw
their seeds from.

Where the RNG program is live a start reserves its seed in a statement of its
own, waits for the entropy of its round, and opens the round in a transaction
after that; elsewhere the transaction draws the seed. A step is one committed
statement or transaction, so calls of every kind come between any two.

`serverSeed` of a round is the seed its field is built from, and `returned`
holds what `rotateServerSeed` gave back. Neither is stored.

Left out are the wagering gate, the aggregates and the ledger: a debit goes
through or it does not.
-/
import Mathlib.Data.Rat.Floor
import Scadium.Fairness.SeedManager
import Scadium.Lib.Runs

namespace Scadium.Games.Instant

open Scadium.Fair Scadium.Fairness
open Scadium.Prisma (UserId RoundId Bytes32)

/-! ## Rounds -/

inductive StatefulGame where
  | mines | hilo | tower
  deriving DecidableEq

def StatefulGame.name : StatefulGame → String
  | .mines => "mines"
  | .hilo => "hilo"
  | .tower => "tower"

inductive RoundStatus where
  | active | won | lost
  deriving DecidableEq

/-- `stateJson`: the committed field, and the visible progress. -/
structure RoundState (J : Type) where
  secret : J
  visible : J

/-- A row of `InstantRound`. -/
structure InstantRound (Seed Digest J : Type) where
  id : RoundId
  userId : UserId
  gameType : StatefulGame
  stakeLamports : Nat
  status : RoundStatus
  serverSeedHash : Digest
  clientSeed : JsString
  nonce : Nat
  multiplier : ℚ
  stateJson : RoundState J
  /-- The seed the field is built from. -/
  serverSeed : Seed

/-- What a game's `build` returns at the start. -/
structure BuildResult (J : Type) where
  secret : J
  visible : J
  multiplier : ℚ

/-- What `apply` of a game is told about the seeds. -/
structure RoundFairness (Digest : Type) where
  serverSeedHash : Digest
  clientSeed : JsString
  nonce : Nat

/-- What a game's `apply` returns for one step. -/
inductive StepResult (J : Type) where
  | goesOn (state : RoundState J) (multiplier : ℚ)
  | settle (won : Bool) (multiplier : ℚ) (resultJson : J)

variable {Seed Digest J : Type}

def InstantRound.fairness (r : InstantRound Seed Digest J) : RoundFairness Digest :=
  ⟨r.serverSeedHash, r.clientSeed, r.nonce⟩

/-- `(stake * BigInt(Math.round(multiplier * 100))) / 100n`, where the round
is won. -/
def payoutLamports (stake : Nat) (won : Bool) (multiplier : ℚ) : Nat :=
  if won = true ∧ 0 < multiplier then stake * ⌊multiplier * 100 + 1 / 2⌋.toNat / 100 else 0

/-! ## Starts -/

/-- How far a call of `startStatefulRound` has come. -/
inductive StartStage (Seed Digest : Type) where
  /-- Past the wagering gate. -/
  | gated
  /-- The seed is reserved, and the entropy awaited. -/
  | reserved (ctx : SeedContext Seed Digest)
  /-- Before the transaction. -/
  | ready (reserved : Option (SeedContext Seed Digest)) (onchainEntropy : Option Bytes32)
  | done

structure StartCall (Seed Digest J : Type) where
  userId : UserId
  gameType : StatefulGame
  stakeLamports : Nat
  gameParams : Bytes32
  build : SeedContext Seed Digest → BuildResult J
  stage : StartStage Seed Digest

/-- What the games leave to code outside: the fold of a round's entropy into
a seed (`rngEntropy`, as hex), and the detail that becomes public with the
result. -/
structure GameCode (Seed J : Type) where
  rngEntropy : Seed → JsString → Bytes32 → Nat → Bytes32 → Seed
  settled : (visible resultJson : J) → J

/-- `deriveSeedContext`: a pass-through without entropy. -/
def deriveSeedContext (games : GameCode Seed J) (ctx : SeedContext Seed Digest)
    (onchainEntropy : Option Bytes32) (gameParams : Bytes32) : SeedContext Seed Digest :=
  match onchainEntropy with
  | none => ctx
  | some entropy =>
      { ctx with
        serverSeed := games.rngEntropy ctx.serverSeed ctx.clientSeed entropy ctx.nonce gameParams }

/-! ## The state -/

structure State (src : SeedSource Seed Digest) (J : Type) where
  store : SeedStore src
  rounds : List (InstantRound Seed Digest J)
  starts : List (StartCall Seed Digest J)
  returned : List Seed

variable {src : SeedSource Seed Digest}

def State.init (src : SeedSource Seed Digest) (J : Type) : State src J := ⟨.empty src, [], [], []⟩

/-- `instantRound.findFirst({ userId, gameType, status: 'active' })` -/
def State.inProgress (s : State src J) (userId : UserId) (gameType : StatefulGame) : Bool :=
  s.rounds.any fun r => r.userId == userId && r.gameType == gameType && r.status == .active

/-- `instantRound.findFirst({ userId, status: 'active' })` -/
def State.activeRound (s : State src J) (userId : UserId) : Bool :=
  s.rounds.any fun r => r.userId == userId && r.status == .active

def State.setStage (s : State src J) (i : Nat) (call : StartCall Seed Digest J)
    (stage : StartStage Seed Digest) : State src J :=
  { s with starts := s.starts.set i { call with stage := stage } }

/-- The row a start creates. -/
def openedRound (games : GameCode Seed J) (call : StartCall Seed Digest J)
    (ctx : SeedContext Seed Digest) (onchainEntropy : Option Bytes32) (id : RoundId) :
    InstantRound Seed Digest J :=
  let folded := deriveSeedContext games ctx onchainEntropy call.gameParams
  let built := call.build { folded with serverSeedHash := ctx.serverSeedHash }
  { id := id
    userId := call.userId
    gameType := call.gameType
    stakeLamports := call.stakeLamports
    status := .active
    serverSeedHash := ctx.serverSeedHash
    clientSeed := folded.clientSeed
    nonce := folded.nonce
    multiplier := built.multiplier
    stateJson := ⟨built.secret, built.visible⟩
    serverSeed := ctx.serverSeed }

/-- The transaction of a start: one round in progress for each game, the
debit, the seed, and the row. -/
def startTx (games : GameCode Seed J) (s : State src J) (call : StartCall Seed Digest J)
    (reserved : Option (SeedContext Seed Digest)) (onchainEntropy : Option Bytes32) (id : RoundId)
    (funded : Bool) : Except String (State src J) :=
  if s.inProgress call.userId call.gameType then
    .error s!"a {call.gameType.name} round is already in progress"
  else if funded = false then .error "insufficient balance"
  else
    match reserved with
    | some ctx =>
        .ok { s with rounds := s.rounds ++ [openedRound games call ctx onchainEntropy id] }
    | none =>
        let (ctx, store) := s.store.consumeNonce call.userId
        .ok { s with
          store := store
          rounds := s.rounds ++ [openedRound games call ctx onchainEntropy id] }

/-- The row of a round after one step of its game. -/
def InstantRound.advance (games : GameCode Seed J) (r : InstantRound Seed Digest J) :
    StepResult J → InstantRound Seed Digest J
  | .goesOn state multiplier =>
      { r with
        multiplier := multiplier
        stateJson := state }
  | .settle stepWon multiplier resultJson =>
      { r with
        status :=
          if stepWon = true ∧ r.stakeLamports < payoutLamports r.stakeLamports stepWon multiplier
          then .won else .lost
        multiplier := multiplier
        stateJson := ⟨r.stateJson.secret, games.settled r.stateJson.visible resultJson⟩ }

/-- `advanceStatefulRound`, one transaction. -/
def advance (games : GameCode Seed J) (s : State src J) (userId : UserId) (roundId : RoundId)
    (gameType : StatefulGame) (apply : RoundState J → RoundFairness Digest → StepResult J) :
    Except String (State src J) :=
  match s.rounds.find? (·.id == roundId) with
  | none => .error "round not found"
  | some round =>
      if round.userId ≠ userId ∨ round.gameType ≠ gameType then .error "round not found"
      else if round.status ≠ .active then .error "round is no longer active"
      else
        .ok { s with
          rounds := s.rounds.map fun r =>
            if r.id = roundId then r.advance games (apply r.stateJson r.fairness) else r }

/-! ## Steps -/

inductive Event (Seed Digest J : Type) where
  /-- The gate lets a start through. -/
  | start (userId : UserId) (gameType : StatefulGame) (stakeLamports : Nat) (gameParams : Bytes32)
      (build : SeedContext Seed Digest → BuildResult J)
  /-- The RNG is live: the seed is reserved. -/
  | reserve (i : Nat)
  /-- It is not. -/
  | offchain (i : Nat)
  /-- `roundEntropy` returns; null when it failed. -/
  | entropy (i : Nat) (onchainEntropy : Option Bytes32)
  | startTx (i : Nat) (id : RoundId) (funded : Bool)
  /-- A statement of a start fails, or the process stops in it. -/
  | fail (i : Nat)
  | advance (userId : UserId) (roundId : RoundId) (gameType : StatefulGame)
      (apply : RoundState J → RoundFairness Digest → StepResult J)
  | getOrCreateActivePair (userId : UserId)
  /-- The seed of a bet on another game. -/
  | consumeNonce (userId : UserId)
  | setClientSeed (userId : UserId) (clientSeed : JsString)
  | rotateServerSeed (userId : UserId)

/-- One step. A transaction that throws leaves the state as it was. -/
def step (games : GameCode Seed J) (s : State src J) : Event Seed Digest J → Option (State src J)
  | .start userId gameType stakeLamports gameParams build =>
      if stakeLamports = 0 then none
      else some { s with
        starts := s.starts ++ [⟨userId, gameType, stakeLamports, gameParams, build, .gated⟩] }
  | .reserve i =>
      match s.starts[i]? with
      | some call =>
          match call.stage with
          | .gated =>
              let (ctx, store) := s.store.reserveSeedContext call.userId
              some ({ s with store := store }.setStage i call (.reserved ctx))
          | _ => none
      | none => none
  | .offchain i =>
      match s.starts[i]? with
      | some call =>
          match call.stage with
          | .gated => some (s.setStage i call (.ready none none))
          | _ => none
      | none => none
  | .entropy i onchainEntropy =>
      match s.starts[i]? with
      | some call =>
          match call.stage with
          | .reserved ctx => some (s.setStage i call (.ready (some ctx) onchainEntropy))
          | _ => none
      | none => none
  | .startTx i id funded =>
      match s.starts[i]? with
      | some call =>
          match call.stage with
          | .ready reserved onchainEntropy =>
              if s.rounds.any (·.id == id) then none
              else
                match startTx games s call reserved onchainEntropy id funded with
                | .ok s' => some (s'.setStage i call .done)
                | .error _ => some (s.setStage i call .done)
          | _ => none
      | none => none
  | .fail i =>
      match s.starts[i]? with
      | some call => some (s.setStage i call .done)
      | none => none
  | .advance userId roundId gameType apply =>
      match advance games s userId roundId gameType apply with
      | .ok s' => some s'
      | .error _ => some s
  | .getOrCreateActivePair userId =>
      some { s with store := (s.store.getOrCreateActivePair userId).2 }
  | .consumeNonce userId => some { s with store := (s.store.consumeNonce userId).2 }
  | .setClientSeed userId clientSeed =>
      some { s with store := (s.store.setClientSeed userId clientSeed).2 }
  | .rotateServerSeed userId =>
      match s.store.rotateServerSeed userId (s.activeRound userId) with
      | (.ok rotation, store) =>
          some { s with
            store := store
            returned := rotation.revealedServerSeed :: s.returned }
      | (.error _, store) => some { s with store := store }

end Scadium.Games.Instant
