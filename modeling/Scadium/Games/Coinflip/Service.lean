/-
Scadium.Games.Coinflip.Service — coin flips (`games/coinflip`), as programs
whose statements run side by side under Read Committed.

Left out are the leaderboard and the commission of a settled side, and what
is broadcast after a commit. Where a statement of them fails, the
transaction is rolled back, as it is wherever a session ends.
-/
import Scadium.Prisma.Sessions
import Scadium.Shared.Constants

namespace Scadium.Games.Coinflip

open Scadium.Lib.ReadCommitted Scadium.Prisma Scadium.Prisma.Sessions Scadium.Shared

/-- The pure functions and settings flips depend on. -/
structure Deps where
  commitServerSeed : String → String
  /-- The first byte of the HMAC of a bet. -/
  hmacByte : (serverSeed clientSeed : String) → (nonce : Nat) → Nat
  /-- `deriveSeedContext(…).serverSeed`, with entropy -/
  rngEntropy : (serverSeed clientSeed : String) → (nonce : Nat) → Bytes32 → String
  economyEnforced : Bool

variable (d : Deps)

/-- Even is heads. -/
def coinflipResult (serverSeed clientSeed : String) (nonce : Nat) : Side :=
  if d.hmacByte serverSeed clientSeed nonce % 2 = 0 then .heads else .tails

def otherSide : Side → Side
  | .heads => .tails
  | .tails => .heads

/-- `(stake * BigInt(Math.round(PAYOUT_MULTIPLIER * 100))) / 100n` -/
def winnerPayout (stake : Nat) : Nat :=
  stake * (mathRound (COINFLIP.PAYOUT_MULTIPLIER * 100)).toNat / 100

/-! ## Queries -/

/-- A flip with what is included of it. -/
structure LoadedFlip where
  id : FlipId
  game : CoinflipGame
  creator : Option User
  joiner : Option User
  seed : Option Seed

def loadFlip (id : FlipId) (s : Tables) : Option LoadedFlip :=
  (s.rows (.flip id)).map fun (game : CoinflipGame) =>
    { id := id
      game := game
      creator := s.rows (.user game.creatorId)
      joiner := game.joinerId.bind fun u => s.rows (.user u)
      seed := s.rows (.seed game.seedId) }

/-- Open and not yet expired. -/
def joinable (now : Time) (game : CoinflipGame) : Bool :=
  game.status == .open && game.expiresAt.all fun t => decide (now < t)

def serialize (g : LoadedFlip) : FlipDto where
  id := g.id
  creatorId := g.game.creatorId
  creatorUsername := g.creator.bind (·.username)
  creatorWallet := g.creator.map (·.walletAddress)
  creatorSide := g.game.creatorSide
  creatorFunded := g.creator.any (·.fundedAt.isSome)
  joinerId := g.game.joinerId
  joinerUsername := g.joiner.bind (·.username)
  joinerWallet := g.joiner.map (·.walletAddress)
  vsHouse := g.game.vsHouse
  amountLamports := g.game.amountLamports
  result := g.game.result
  winnerId := g.game.winnerId
  status := g.game.status
  createdAt := g.game.createdAt
  resolvedAt := g.game.resolvedAt
  expiresAt := g.game.expiresAt
  serverSeedHash := g.seed.map (·.serverSeedHash)
  serverSeed := if g.game.status = .completed then g.seed.map (·.serverSeed) else none
  clientSeed := g.seed.map (·.clientSeed)
  nonce := g.game.nonce

/-- The flips that `P` holds of. -/
def findFlips (P : CoinflipGame → Bool) (s : Tables) : List LoadedFlip :=
  s.keys.filterMap fun
    | .flip id => (loadFlip id s).filter fun g => P g.game
    | _ => none

/-- `take: Math.min(Math.max(limit, 1), 100)`, in the order of `before`. -/
def page (before : LoadedFlip → LoadedFlip → Bool) (limit : Nat) (flips : List LoadedFlip) :
    Response :=
  .flips (((flips.mergeSort before).take (min (max limit 1) 100)).map serialize)

def newest (a b : LoadedFlip) : Bool := decide (b.game.createdAt ≤ a.game.createdAt)

def highest (a b : LoadedFlip) : Bool :=
  decide (b.game.amountLamports < a.game.amountLamports) ||
    (b.game.amountLamports == a.game.amountLamports && newest a b)

def latest (a b : LoadedFlip) : Bool :=
  decide (b.game.resolvedAt.getD 0 ≤ a.game.resolvedAt.getD 0)

def listOpen (limit : Nat) (byAmount : Bool) : SessionProg Response := do
  let env ← Prog.answer
  Prog.query fun s =>
    page (if byAmount then highest else newest) limit (findFlips (joinable env.now) s)

def listRecent (limit : Nat) : SessionProg Response :=
  Prog.query fun s => page latest limit (findFlips (·.status == .completed) s)

/-- The caller's open flips, all of them. -/
def listMine (userId : UserId) : SessionProg Response :=
  Prog.query fun s => .flips <| ((findFlips (fun g => g.creatorId == userId && g.status == .open)
    s).mergeSort newest).map serialize

/-! ## Settlement -/

/-- Who takes the other side of a flip. -/
inductive Opponent where
  | player (userId : UserId) (reserved : Option ClientSeed) (onchainEntropy : Option Bytes32)
  | house
  deriving DecidableEq

/-- `update` of the nonce, with the row it returns. -/
def nextNonce (userId : UserId) : SessionProg ClientSeed := do
  updateOrThrow (.clientSeed userId) fun r => { r with nonce := r.nonce + 1 }
  let row ← Prog.query fun s => s.rows (.clientSeed userId)
  match row with
  | some r => pure r
  | none => .throw p2025

/-- `SeedManagerService.consumeNonce(tx, userId)`: a first use creates the
row. One that is created at the same time makes this transaction fail. -/
def consumeNonce (userId : UserId) : SessionProg ClientSeed := do
  let env ← Prog.answer
  let existing ← Prog.query fun s => s.rows (.clientSeed userId)
  match existing with
  | some _ => nextNonce userId
  | none => do
      let row : ClientSeed := ⟨env.clientSeed, 0, env.serverSeed, d.commitServerSeed env.serverSeed⟩
      create (.clientSeed userId) row
      nextNonce userId

def stakeMeta (id : FlipId) : DeltaMeta :=
  { reason := "coinflip_stake", refType := "CoinflipGame", refId := some id }

def refundMeta (id : FlipId) : DeltaMeta :=
  { reason := "refund", refType := "CoinflipGame", refId := some id }

def payoutMeta (betId : BetId) : DeltaMeta :=
  { reason := "coinflip_payout", refType := "Bet", refId := some betId }

/-- The seed a player's flip is keyed by, with the context that binds it. -/
def playerSeed (id : FlipId) (stake : Nat) (serverSeed : String) (userId : UserId)
    (reserved : Option ClientSeed) (onchainEntropy : Option Bytes32) :
    SessionProg (ClientSeed × String) := do
  let joiner ← findUser userId
  match joiner with
  | none => .throw (.notFound "User not found")
  | some joiner =>
      if joiner.banned then .throw (.forbidden "Account banned")
      else do
        let _ ← applyBalanceDelta userId (-(stake : Int)) (stakeMeta id)
        let ctx ← match reserved with
          | some ctx => pure ctx
          | none => consumeNonce d userId
        pure (ctx, match onchainEntropy with
          | some entropy => d.rngEntropy serverSeed ctx.clientSeed ctx.nonce entropy
          | none => serverSeed)

def opponentSeed (g : LoadedFlip) (serverSeed : String) : Opponent → SessionProg (ClientSeed × String)
  | .player userId reserved onchainEntropy =>
      playerSeed d g.id g.game.amountLamports serverSeed userId reserved onchainEntropy
  | .house => do
      let ctx ← consumeNonce d g.game.creatorId
      pure (ctx, serverSeed)

/-- One human side of a resolved flip. -/
structure FlipSide where
  userId : UserId
  side : Side
  won : Bool

/-- The human sides, the creator's first. -/
def sidesOf (g : LoadedFlip) (result : Side) : Opponent → List FlipSide
  | .player userId _ _ =>
      [⟨g.game.creatorId, g.game.creatorSide, result = g.game.creatorSide⟩,
        ⟨userId, otherSide g.game.creatorSide, result ≠ g.game.creatorSide⟩]
  | .house => [⟨g.game.creatorId, g.game.creatorSide, result = g.game.creatorSide⟩]

def Opponent.isHouse : Opponent → Bool
  | .player .. => false
  | .house => true

/-- The bet of a side. -/
def betRow (g : LoadedFlip) (seed : Seed) (ctx : ClientSeed) (result : Side) (vsHouse : Bool)
    (s : FlipSide) : CoinflipBet where
  userId := s.userId
  amountLamports := g.game.amountLamports
  payoutLamports := if s.won then winnerPayout g.game.amountLamports else 0
  won := s.won
  seedId := g.game.seedId
  nonce := ctx.nonce
  side := s.side
  result := result
  vsHouse := vsHouse
  serverSeedHash := seed.serverSeedHash
  clientSeed := ctx.clientSeed

/-- The aggregates of a side. -/
def wagered (stake : Nat) (won : Bool) (u : User) : User :=
  let profit : Int := (winnerPayout stake : Int) - stake
  if won then
    { u with
      totalWon := u.totalWon + profit
      totalWagered := u.totalWagered + stake
      gamesPlayed := u.gamesPlayed + 1
      biggestWin := max u.biggestWin profit }
  else
    { u with
      totalLost := u.totalLost + stake
      totalWagered := u.totalWagered + stake
      gamesPlayed := u.gamesPlayed + 1 }

def settleSide (stake : Nat) (bet : CoinflipBet) (s : FlipSide) : SessionProg Unit := do
  updateOrThrow (.user s.userId) (wagered stake s.won)
  let env ← Prog.answer
  create (.bet env.newId) bet
  if s.won then do
    let _ ← applyBalanceDelta s.userId (winnerPayout stake) (payoutMeta env.newId)
    pure ()
  else pure ()

def settleSides (stake : Nat) (bet : FlipSide → CoinflipBet) : List FlipSide → SessionProg Unit
  | [] => pure ()
  | s :: rest => do
      settleSide stake (bet s) s
      settleSides stake bet rest

/-- The row of a resolved flip. -/
def completed (game : CoinflipGame) (opponent : Opponent) (result : Side) (nonce : Nat)
    (now : Time) : CoinflipGame :=
  let joinerId := match opponent with
    | .player userId _ _ => some userId
    | .house => none
  { game with
    joinerId := joinerId
    vsHouse := opponent.isHouse
    result := some result
    winnerId := if result = game.creatorSide then some game.creatorId else joinerId
    status := .completed
    resolvedAt := some now
    nonce := nonce
    expiresAt := none }

/-- The flip as it is now. -/
def includeFlip (id : FlipId) : SessionProg FlipDto := do
  let loaded ← Prog.query (loadFlip id)
  match loaded with
  | some g => pure (serialize g)
  | none => .throw p2025

/-- Settle a flip that is claimed. -/
def settleClaimed (g : LoadedFlip) (seed : Seed) (opponent : Opponent) : SessionProg FlipDto := do
  let (ctx, flipSeed) ← opponentSeed d g seed.serverSeed opponent
  let result := coinflipResult d flipSeed ctx.clientSeed ctx.nonce
  settleSides g.game.amountLamports (betRow g seed ctx result opponent.isHouse)
    (sidesOf g result opponent)
  let env ← Prog.answer
  updateOrThrow (.seed g.game.seedId) fun r =>
    { r with clientSeed := ctx.clientSeed, revealedAt := some env.now }
  updateOrThrow (.flip g.id) fun game => completed game opponent result ctx.nonce env.now
  includeFlip g.id

/-- Take the other side and settle, inside the caller's transaction. The
change from `open` to `resolving` is the gate. -/
def resolve (g : LoadedFlip) (opponent : Opponent) : SessionProg FlipDto := do
  let env ← Prog.answer
  updateManyOrThrow (.flip g.id) (joinable env.now) (fun game => { game with status := .resolving })
    (.badRequest "Flip not joinable")
  match g.seed with
  | none => .throw (.other none "Seed missing for flip")
  | some seed => settleClaimed d g seed opponent

/-! ## Commands -/

structure CreateParams where
  userId : UserId
  side : Side
  amountLamports : Nat
  vsHouse : Bool
  deriving DecidableEq

def assertBetRange (amount : Nat) : SessionProg Unit :=
  if amount < COINFLIP.MIN_BET_LAMPORTS ∨ COINFLIP.MAX_BET_LAMPORTS < amount then
    .throw (.badRequest s!"Bet out of range ({COINFLIP.MIN_BET_LAMPORTS}-{COINFLIP.MAX_BET_LAMPORTS} lamports)")
  else pure ()

/-- `rg.assertCanWager` -/
def assertCanWager : SessionProg Unit := do
  let env ← Prog.answer
  match env.refused with
  | some e => .throw e
  | none => pure ()

def isOpenOf (userId : UserId) : ∀ k, Row k → Bool
  | .flip _, game => game.creatorId == userId && game.status == .open
  | _, _ => false

/-- How many open flips a user has. -/
def openFlips (userId : UserId) (s : Tables) : Nat := (s.select (isOpenOf userId)).length

def assertOpenLimit (userId : UserId) : SessionProg Unit := do
  let n ← Prog.countRows (openFlips userId)
  if COINFLIP.MAX_OPEN_PER_USER ≤ n then
    .throw (.badRequest s!"You already have {COINFLIP.MAX_OPEN_PER_USER} open flips — cancel one, or flip against the house")
  else pure ()

/-- A flip as it is created. -/
def newFlip (p : CreateParams) (seedId : SeedId) (now : Time) : CoinflipGame where
  creatorId := p.userId
  creatorSide := p.side
  joinerId := none
  amountLamports := p.amountLamports
  result := none
  winnerId := none
  status := .open
  seedId := seedId
  nonce := 0
  vsHouse := false
  expiresAt := if p.vsHouse then none else some (now + COINFLIP.OPEN_TTL_MS)
  createdAt := now
  resolvedAt := none

/-- The debit, the seed and the row. -/
def openFlip (p : CreateParams) : SessionProg LoadedFlip := do
  let env ← Prog.answer
  let gameId := env.newId
  let _ ← applyBalanceDelta p.userId (-(p.amountLamports : Int)) (stakeMeta gameId)
  let env ← Prog.answer
  let seedId := env.newId
  create (.seed seedId) ⟨d.commitServerSeed env.serverSeed, env.serverSeed, "", none⟩
  create (.flip gameId) (newFlip p seedId env.now)
  let loaded ← Prog.query (loadFlip gameId)
  match loaded with
  | some g => pure g
  | none => .throw p2025

/-- The effects of a create, with its answer. -/
def createFlip (p : CreateParams) : SessionProg FlipDto := do
  let user ← findUser p.userId
  match user with
  | none => .throw (.notFound "User not found")
  | some user =>
      if user.banned then .throw (.forbidden "Account banned")
      else do
        if p.vsHouse then pure () else assertOpenLimit p.userId
        let g ← openFlip d p
        if p.vsHouse then resolve d g .house else pure (serialize g)

/-- A command with an idempotency key, in one transaction. -/
def idempotent (userId : UserId) (scope : String) (key : Option String)
    (effects : SessionProg Response) : SessionProg Response :=
  Prog.transaction do
    let replay ← claimIdempotency userId scope key
    match replay with
    | some response => pure response
    | none => do
        let response ← effects
        storeIdempotency userId scope key response
        pure response

def createCommand (p : CreateParams) (key : Option String) : SessionProg Response := do
  assertBetRange p.amountLamports
  assertCanWager
  idempotent p.userId "coinflip_create" key do
    let dto ← createFlip d p
    pure (.flip dto)

/-- `isReal`, with the row locked to the end of the transaction. -/
def isRealLocked (userId : UserId) : SessionProg Bool := do
  let _ ← Prog.update (.user userId) some
  let user ← findUser userId
  pure (user.any (·.fundedAt.isSome))

def assertSameEconomy (creatorId joinerId : UserId) : SessionProg Unit :=
  if d.economyEnforced then do
    let creator ← findUser creatorId
    match creator with
    | none => .throw p2025
    | some creator => do
        let joiner ← isRealLocked joinerId
        if creator.fundedAt.isSome = joiner then pure ()
        else .throw (.forbidden
          "This flip is played with the other balance type (play-money vs deposited SOL)")
  else pure ()

/-- The joiner's seed, reserved in a statement of its own, and the entropy of
a round. -/
def reserveSeed (userId : UserId) (id : FlipId) :
    SessionProg (Option ClientSeed × Option Bytes32) := do
  let env ← Prog.answer
  if env.live then do
    let pre ← Prog.query (loadFlip id)
    match pre with
    | some g =>
        if g.game.status = .open ∧ g.seed.isSome ∧ g.game.creatorId ≠ userId then do
          let ctx ← Prog.transaction (consumeNonce d userId)
          let env ← Prog.answer
          pure (some ctx, env.onchainEntropy)
        else pure (none, none)
    | none => pure (none, none)
  else pure (none, none)

def joinFlip (userId : UserId) (id : FlipId) (reserved : Option ClientSeed)
    (onchainEntropy : Option Bytes32) : SessionProg FlipDto := do
  let game ← Prog.query (loadFlip id)
  match game with
  | none => .throw (.notFound "Flip not found")
  | some g =>
      if g.game.creatorId = userId then .throw (.badRequest "Can't join your own flip")
      else do
        assertSameEconomy d g.game.creatorId userId
        resolve d g (.player userId reserved onchainEntropy)

def joinCommand (userId : UserId) (id : FlipId) (key : Option String) : SessionProg Response := do
  assertCanWager
  let (reserved, onchainEntropy) ← reserveSeed d userId id
  idempotent userId "coinflip_join" key do
    let dto ← joinFlip d userId id reserved onchainEntropy
    pure (.flip dto)

def playHouse (userId : UserId) (id : FlipId) : SessionProg Response :=
  Prog.transaction do
    let game ← Prog.query (loadFlip id)
    match game with
    | none => .throw (.notFound "Flip not found")
    | some g =>
        if g.game.creatorId ≠ userId then
          .throw (.forbidden "Only the creator can play this flip against the house")
        else do
          let dto ← resolve d g .house
          pure (.flip dto)

/-- Cancel an open flip and refund its creator; false when it is no longer
open. -/
def cancelOpenFlip (id : FlipId) : SessionProg Bool := do
  let env ← Prog.answer
  let claimed ← Prog.update (.flip id) fun (game : CoinflipGame) =>
    if game.status = .open then some { game with status := .cancelled, resolvedAt := some env.now }
    else none
  if claimed then do
    let game ← Prog.query fun s => s.rows (.flip id)
    match game with
    | none => .throw p2025
    | some game => do
        let _ ← applyBalanceDelta game.creatorId game.amountLamports (refundMeta id)
        pure true
  else pure false

def cancel (userId : UserId) (id : FlipId) : SessionProg Response :=
  Prog.transaction do
    let game ← Prog.query (loadFlip id)
    match game with
    | none => .throw (.notFound "Flip not found")
    | some g =>
        if g.game.creatorId ≠ userId then .throw (.forbidden "Only the creator can cancel")
        else do
          let cancelled ← cancelOpenFlip id
          if cancelled then do
            let dto ← includeFlip id
            pure (.flip dto)
          else .throw (.badRequest "Only open flips can be cancelled")

/-- One transaction for each flip; how many were cancelled. -/
def cancelEach : List FlipId → SessionProg Nat
  | [] => pure 0
  | id :: rest => do
      let cancelled ← Prog.transaction (cancelOpenFlip id)
      let n ← cancelEach rest
      pure (if cancelled then n + 1 else n)

/-- The sweep of the flips nobody joined. -/
def expireStale : SessionProg Response := do
  let env ← Prog.answer
  let stale ← Prog.query fun s => ((findFlips (fun g => g.status == .open &&
    g.expiresAt.any fun t => decide (t ≤ env.now)) s).take 100).map (·.id)
  let n ← cancelEach stale
  pure (.expired n)

/-- What a self-exclusion or a cooling-off does to the open flips. -/
def cancelOpenFlips (userId : UserId) : SessionProg Response := do
  let mine ← Prog.query fun s =>
    (findFlips (fun g => g.creatorId == userId && g.status == .open) s).map (·.id)
  let n ← cancelEach mine
  pure (.expired n)

/-! ## The system -/

inductive Call where
  | create (p : CreateParams) (key : Option String)
  | join (userId : UserId) (id : FlipId) (key : Option String)
  | playHouse (userId : UserId) (id : FlipId)
  | cancel (userId : UserId) (id : FlipId)
  | expireStale
  | cancelOpenFlips (userId : UserId)
  | listOpen (limit : Nat) (byAmount : Bool)
  | listRecent (limit : Nat)
  | listMine (userId : UserId)
  deriving DecidableEq

def body : Call → SessionProg Response
  | .create p key => createCommand d p key
  | .join userId id key => joinCommand d userId id key
  | .playHouse userId id => playHouse d userId id
  | .cancel userId id => cancel userId id
  | .expireStale => expireStale
  | .cancelOpenFlips userId => cancelOpenFlips userId
  | .listOpen limit byAmount => listOpen limit byAmount
  | .listRecent limit => listRecent limit
  | .listMine userId => listMine userId

abbrev FlipSystem := System Row BalanceLedger Env TxError Response Call

def step : FlipSystem → Event Env Call → Option FlipSystem := Scadium.Lib.ReadCommitted.step (body d)

def FlipSystem.initial (users : UserId → Option User) : FlipSystem := System.initial (usersOnly users)

end Scadium.Games.Coinflip
