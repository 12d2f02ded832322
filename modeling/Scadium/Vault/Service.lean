/-
Scadium.Vault.Service — deposits into the term vaults and withdrawals from
them (`apps/api/src/vault/vault.service.ts`), the hourly accrual
(`apps/api/src/vault/vault-accrual.service.ts`), and the vault as a system of
accrual runs, deposits and withdrawals.

Deposits and withdrawals are one serializable transaction each, so each is a function from the
database to the database; a transaction that throws changes nothing. The
movements between a user's balances are those of `applyBalanceDelta`. Which
id a new row gets is the environment's choice.

An accrual run reads the round, the hour's bets and the pools, one after the
other, before the transaction that credits the pools; it keeps the pools as it
read them. Deposits and withdrawals may come in between, and so may other
runs. What the hour's bets sum up to is the environment's choice; the
mirroring of the credits on chain is left out.
-/
import Scadium.Lib.Table
import Scadium.Prisma.Committed
import Scadium.Shared.VaultMath
import Scadium.Lib.Runs

namespace Scadium.Vault

open Scadium.Lib Scadium.Prisma Scadium.Prisma.Committed Scadium.Shared

abbrev PoolId := Nat
abbrev PositionId := Nat
/-- A UTC hour, `YYYYMMDDHH`. -/
abbrev Period := Nat

structure VaultPool where
  termDays : Nat
  totalAssets : Int
  totalShares : Nat
  indexRay : Nat
  weightBps : Nat
  aprBps : Nat
  active : Bool

structure VaultPosition where
  userId : UserId
  poolId : PoolId
  shares : Nat
  principal : Nat
  maturesAt : Time

inductive VaultEventKind where
  | deposit | withdraw | early_exit | accrue
  deriving DecidableEq

structure VaultEvent where
  userId : Option UserId
  poolId : PoolId
  kind : VaultEventKind
  assetsDelta : Int
  sharesDelta : Int
  penaltyAssets : Nat
  indexRayAfter : Nat

structure VaultAccrualRound where
  distributed : Bool
  ngrLamports : Int
  yieldScad : Nat
  poolCount : Nat

structure VaultDb where
  db : Db
  pools : Table PoolId VaultPool
  positions : Table PositionId VaultPosition
  events : List VaultEvent
  rounds : Table Period VaultAccrualRound

abbrev Result (α : Type) := Committed α

/-! ## Deposit -/

structure DepositResult where
  positionId : PositionId
  shares : Nat
  principal : Nat
  maturesAt : Time

/-- `termDays * 24 * 60 * 60 * 1000` -/
def termMs (termDays : Nat) : Nat := termDays * 24 * 60 * 60 * 1000

def deposit (s : VaultDb) (userId : UserId) (poolId : PoolId) (amount : Int) (now : Time)
    (positionId : PositionId) : Result (VaultDb × DepositResult) := do
  ensure ((VAULT.MIN_DEPOSIT_SCAD_BASE : Int) ≤ amount)
    (.badRequest "Minimum deposit is 1000000000 SCAD base units")
  let amount := amount.toNat
  let pool ← orThrow (s.pools.get poolId) (.notFound "Vault pool not found")
  ensure pool.active (.notFound "Vault pool not found")
  let shares := sharesForDeposit amount pool.indexRay
  ensure (0 < shares) (.badRequest "Deposit too small to mint shares")
  let db ← moveBalance s.db userId (-amount) ⟨"vault_deposit", "VaultEvent", some poolId, .scad, none⟩
  let db ← moveBalance db userId amount
    ⟨"vault_deposit", "VaultEvent", some poolId, .scad_vault, none⟩
  let pools := s.pools.set poolId { pool with
    totalAssets := pool.totalAssets + amount, totalShares := pool.totalShares + shares }
  let maturesAt := now + termMs pool.termDays
  ensure ((s.positions.get positionId).isNone) (.prisma "P2002" none "Unique constraint failed")
  let positions := s.positions.set positionId ⟨userId, poolId, shares, amount, maturesAt⟩
  let event : VaultEvent := ⟨some userId, poolId, .deposit, amount, shares, 0, pool.indexRay⟩
  pure ({ s with db := db, pools := pools, positions := positions, events := event :: s.events },
    ⟨positionId, shares, amount, maturesAt⟩)

/-! ## Withdrawal -/

structure WithdrawResult where
  positionId : PositionId
  sharesBurned : Nat
  grossAssets : Nat
  penaltyAssets : Nat
  netAssets : Nat
  early : Bool

/-- What is kept of `gross`. -/
def penaltyFor (isEarly : Bool) (gross : Nat) : Nat := if isEarly then earlyExitPenalty gross else 0

/-- The principal that leaves with the shares. -/
def principalPortion (position : VaultPosition) (sharesToBurn : Nat) : Nat :=
  if sharesToBurn = position.shares then position.principal
  else position.principal * sharesToBurn / position.shares

/-- The pool without the burned shares and the net assets; when the last
shares leave it is reset to genesis. -/
def VaultPool.exit (pool : VaultPool) (sharesToBurn net penalty : Nat) : VaultPool :=
  let newTotalShares := pool.totalShares - sharesToBurn
  if newTotalShares = 0 then
    { pool with totalShares := 0, totalAssets := 0, indexRay := VAULT.INITIAL_INDEX_RAY }
  else
    { pool with
      totalShares := newTotalShares
      totalAssets := pool.totalAssets - net
      indexRay := applyAccrual pool.indexRay newTotalShares penalty }

/-- The position without the burned shares; the row goes with the last. -/
def exitPosition (positions : Table PositionId VaultPosition) (positionId : PositionId)
    (position : VaultPosition) (sharesToBurn portion : Nat) : Table PositionId VaultPosition :=
  if position.shares - sharesToBurn = 0 then positions.erase positionId
  else positions.set positionId { position with
    shares := position.shares - sharesToBurn, principal := position.principal - portion }

/-- `if (net > 0n)` -/
def creditNet (db : Db) (userId : UserId) (net : Nat) (info : DeltaMeta) : Result Db :=
  if 0 < net then moveBalance db userId net info else .ok db

def withdraw (s : VaultDb) (userId : UserId) (positionId : PositionId) (shares : Option Int)
    (now : Time) : Result (VaultDb × WithdrawResult) := do
  let position ← orThrow (s.positions.get positionId) (.notFound "Vault position not found")
  -- `include: { pool: true }`, by a foreign key
  let pool ← orThrow (s.pools.get position.poolId) (.notFound "Vault position not found")
  ensure (position.userId = userId) (.notFound "Vault position not found")
  let sharesToBurn := shares.getD position.shares
  ensure (0 < sharesToBurn) (.badRequest "Shares must be positive")
  ensure (sharesToBurn ≤ position.shares) (.badRequest "Shares exceed position")
  let sharesToBurn := sharesToBurn.toNat
  let gross := assetsForShares sharesToBurn pool.indexRay
  let isEarly : Bool := now < position.maturesAt
  let penalty := penaltyFor isEarly gross
  let net := gross - penalty
  let portion := principalPortion position sharesToBurn
  let newPool := pool.exit sharesToBurn net penalty
  let reason := if isEarly then "vault_early_exit" else "vault_withdraw"
  let db ← moveBalance s.db userId (-portion) ⟨reason, "VaultEvent", some positionId, .scad_vault, none⟩
  let db ← creditNet db userId net ⟨reason, "VaultEvent", some positionId, .scad, none⟩
  let pools := s.pools.set position.poolId newPool
  let positions := exitPosition s.positions positionId position sharesToBurn portion
  let kind : VaultEventKind := if isEarly then .early_exit else .withdraw
  let event : VaultEvent :=
    ⟨some userId, position.poolId, kind, -net, -sharesToBurn, penalty, newPool.indexRay⟩
  pure ({ s with db := db, pools := pools, positions := positions, events := event :: s.events },
    ⟨positionId, sharesToBurn, gross, penalty, net, isEarly⟩)

/-! ## What they did -/

variable {s s' : VaultDb} {userId : UserId} {now : Time}

/-- What a deposit did to the vault's tables. -/
structure Deposited (s s' : VaultDb) (userId : UserId) (poolId : PoolId) (amount : Nat)
    (pool : VaultPool) (positionId : PositionId) (maturesAt : Time) : Prop where
  found : s.pools.get poolId = some pool
  shares_pos : 0 < amount * VAULT.RAY / pool.indexRay
  fresh : s.positions.get positionId = none
  pools : s'.pools = s.pools.set poolId { pool with
    totalAssets := pool.totalAssets + amount
    totalShares := pool.totalShares + amount * VAULT.RAY / pool.indexRay }
  positions : s'.positions = s.positions.set positionId
    ⟨userId, poolId, amount * VAULT.RAY / pool.indexRay, amount, maturesAt⟩
  rounds : s'.rounds = s.rounds

theorem deposit_ok {poolId : PoolId} {amount : Int} {positionId : PositionId} {r : DepositResult}
    (h : deposit s userId poolId amount now positionId = .ok (s', r)) :
    ∃ pool, Deposited s s' userId poolId amount.toNat pool positionId r.maturesAt := by
  simp only [deposit, bind_ok, ensure_ok, orThrow_ok, sharesForDeposit_eq] at h
  obtain ⟨-, -, pool, hpool, -, -, -, hpos, _, -, _, -, -, hfresh, hr⟩ := h
  cases hr
  exact ⟨pool, hpool, hpos, by simpa using hfresh, rfl, rfl, rfl⟩

/-- What a withdrawal did to the vault's tables, and what it paid. -/
structure Withdrawn (s s' : VaultDb) (positionId : PositionId) (position : VaultPosition)
    (pool : VaultPool) (r : WithdrawResult) : Prop where
  found : s.positions.get positionId = some position
  inPool : s.pools.get position.poolId = some pool
  burned_pos : 0 < r.sharesBurned
  burned_le : r.sharesBurned ≤ position.shares
  gross : r.grossAssets = r.sharesBurned * pool.indexRay / VAULT.RAY
  penalty : r.penaltyAssets = if r.early then r.grossAssets / 10 else 0
  net : r.netAssets = r.grossAssets - r.penaltyAssets
  pools : s'.pools = s.pools.set position.poolId
    (pool.exit r.sharesBurned r.netAssets r.penaltyAssets)
  positions : s'.positions = exitPosition s.positions positionId position r.sharesBurned
    (principalPortion position r.sharesBurned)
  rounds : s'.rounds = s.rounds
  paid : s'.db.balance position.userId .scad =
    s.db.balance position.userId .scad + r.netAssets

theorem creditNet_ok {db db' : Db} {u : UserId} {net : Nat} {info : DeltaMeta}
    (h : creditNet db u net info = .ok db') :
    db'.balance u info.currency = db.balance u info.currency + net := by
  unfold creditNet at h
  split at h
  case isTrue =>
    have hmove := moveBalance_balance h u info.currency
    simpa using hmove
  case isFalse hzero =>
    cases h
    have hnet : net = 0 := by omega
    simp [hnet]

theorem withdraw_ok {positionId : PositionId} {shares : Option Int} {r : WithdrawResult}
    (h : withdraw s userId positionId shares now = .ok (s', r)) :
    ∃ position pool, Withdrawn s s' positionId position pool r ∧ position.userId = userId ∧
      (r.sharesBurned : Int) = shares.getD position.shares ∧
      r.early = decide (now < position.maturesAt) := by
  simp only [withdraw, bind_ok, ensure_ok, orThrow_ok, assetsForShares_eq] at h
  obtain ⟨position, hposition, pool, hpool, -, huser, -, _, -, _, _, hdebit, _, hcredit,
    hr⟩ := h
  cases hr
  subst huser
  have hvault := moveBalance_balance hdebit position.userId .scad
  have hnet := creditNet_ok hcredit
  have hburned : (((shares.getD position.shares).toNat : Nat) : Int) = shares.getD position.shares :=
    Int.toNat_of_nonneg (by omega)
  refine ⟨position, pool, ?_, rfl, hburned, rfl⟩
  exact
    { found := hposition, inPool := hpool
      burned_pos := by
        show 0 < (shares.getD position.shares).toNat
        omega
      burned_le := by
        show (shares.getD position.shares).toNat ≤ position.shares
        omega
      gross := rfl
      penalty := by simp [penaltyFor, earlyExitPenalty_eq]
      net := rfl, pools := rfl, positions := rfl, rounds := rfl
      paid := by
        simp only at hnet
        rw [hvault] at hnet
        simpa using hnet }

/-! ## One round of the accrual -/

/-- What a pool is credited, beside the row as the run read it. -/
structure Credit where
  poolId : PoolId
  seen : VaultPool
  poolYield : Nat

def totalYield (ngr : Int) : Nat := lamportsToScadBase (vaultYieldSliceLamports ngr)

def poolWeight (p : VaultPool) : Nat := p.weightBps * p.totalShares

def totalWeight (pools : List (PoolId × VaultPool)) : Nat := weight (fun p => poolWeight p.2) pools

/-- Nothing to distribute. -/
def noYield (ngr : Int) (pools : List (PoolId × VaultPool)) : Bool :=
  totalYield ngr < VAULT.MIN_ACCRUAL_SCAD_BASE || pools.isEmpty || totalWeight pools == 0

/-- The credits of a round, without the pools whose slice is zero. -/
def credits (ngr : Int) (pools : List (PoolId × VaultPool)) : List Credit :=
  (pools.map fun p =>
    ⟨p.1, p.2, totalYield ngr * poolWeight p.2 / totalWeight pools⟩).filter fun c => 0 < c.poolYield

def roundsPerYear : Nat :=
  (mathRound (365 * 24 * 60 * 60 * 1000 / (ENGINE.DISTRIBUTION_INTERVAL_MS : Rat))).toNat

/-- The index a credit writes, computed from the row as it was read. -/
def Credit.newIndex (c : Credit) : Nat := applyAccrual c.seen.indexRay c.seen.totalShares c.poolYield

def Credit.aprBps (c : Credit) : Nat :=
  let valueBefore := assetsForShares c.seen.totalShares c.seen.indexRay
  if 0 < valueBefore then c.poolYield * 10000 * roundsPerYear / valueBefore else 0

/-- `tx.vaultPool.update`: the index is set, the assets are incremented. -/
def VaultPool.credit (p : VaultPool) (c : Credit) : VaultPool :=
  { p with
    indexRay := c.newIndex, totalAssets := p.totalAssets + c.poolYield, aprBps := c.aprBps }

def creditPools : Table PoolId VaultPool → List Credit → Result (Table PoolId VaultPool)
  | pools, [] => .ok pools
  | pools, c :: cs => do
      let p ← orThrow (pools.get c.poolId) (.prisma "P2025" none "Record not found")
      creditPools (pools.set c.poolId (p.credit c)) cs

def Credit.event (c : Credit) : VaultEvent :=
  ⟨none, c.poolId, .accrue, c.poolYield, 0, 0, c.newIndex⟩

/-- The row an upsert finds or creates. -/
def VaultDb.round (s : VaultDb) (period : Period) : VaultAccrualRound :=
  (s.rounds.get period).getD ⟨false, 0, 0, 0⟩

/-- The round is settled with zero. -/
def settleZero (s : VaultDb) (period : Period) (ngr : Int) : VaultDb :=
  { s with rounds := s.rounds.set period { s.round period with
      distributed := true, ngrLamports := ngr, yieldScad := 0 } }

/-- The transaction that credits the pools. -/
def settleRound (s : VaultDb) (period : Period) (ngr : Int) (pools : List (PoolId × VaultPool)) :
    Result VaultDb :=
  if (s.round period).distributed then .ok s
  else do
    let cs := credits ngr pools
    let newPools ← creditPools s.pools cs
    pure { s with
      pools := newPools
      events := (cs.map Credit.event).reverse ++ s.events
      rounds := s.rounds.set period { s.round period with
        distributed := true, ngrLamports := ngr, yieldScad := weight Credit.poolYield cs
        poolCount := cs.length } }

/-! ## The system -/

/-- An accrual run, by what it has read. -/
inductive AccrualRun where
  | begun (period : Period)
  | checked (period : Period)
  | counted (period : Period) (ngr : Int)
  | planned (period : Period) (ngr : Int) (pools : List (PoolId × VaultPool))

abbrev RunId := Nat

structure VaultSystem where
  vault : VaultDb
  runs : Table RunId AccrualRun

/-- One read or one transaction. -/
inductive Act where
  | deposit (userId : UserId) (poolId : PoolId) (amount : Int) (now : Time)
      (positionId : PositionId)
  | withdraw (userId : UserId) (positionId : PositionId) (shares : Option Int) (now : Time)
  /-- `accrue()` is called in the hour after `period`. -/
  | accrue (run : RunId) (period : Period)
  /-- `vaultAccrualRound.findUnique` -/
  | findRound (run : RunId)
  /-- `bet.aggregate`, with what it returns -/
  | aggregate (run : RunId) (ngr : Int)
  /-- `vaultPool.findMany` -/
  | findPools (run : RunId)
  /-- the transaction, or the upsert when there is nothing to distribute -/
  | settle (run : RunId)
  /-- the process is killed -/
  | kill (run : RunId)

/-- Active pools with stakers. -/
def eligible (pools : Table PoolId VaultPool) : List (PoolId × VaultPool) :=
  pools.entries.filter fun p => p.2.active && 0 < p.2.totalShares

/-- After its reads, a run settles the round. -/
def settle (s : VaultDb) (period : Period) (ngr : Int) (pools : List (PoolId × VaultPool)) :
    Result VaultDb :=
  if noYield ngr pools then .ok (settleZero s period ngr) else settleRound s period ngr pools

/-- The database after a transaction that may throw. -/
def dbAfter (s : VaultDb) (r : Result VaultDb) : VaultDb :=
  match r with
  | .ok s' => s'
  | .error _ => s

def step (s : VaultSystem) : Act → Option VaultSystem
  | .deposit userId poolId amount now positionId =>
      match deposit s.vault userId poolId amount now positionId with
      | .ok r => some { s with vault := r.1 }
      | .error _ => none
  | .withdraw userId positionId shares now =>
      match withdraw s.vault userId positionId shares now with
      | .ok r => some { s with vault := r.1 }
      | .error _ => none
  | .accrue run period =>
      match s.runs.get run with
      | none => some { s with runs := s.runs.set run (.begun period) }
      | some _ => none
  | .findRound run =>
      match s.runs.get run with
      | some (.begun period) =>
          if (s.vault.round period).distributed then some { s with runs := s.runs.erase run }
          else some { s with runs := s.runs.set run (.checked period) }
      | _ => none
  | .aggregate run ngr =>
      match s.runs.get run with
      | some (.checked period) => some { s with runs := s.runs.set run (.counted period ngr) }
      | _ => none
  | .findPools run =>
      match s.runs.get run with
      | some (.counted period ngr) =>
          some { s with runs := s.runs.set run (.planned period ngr (eligible s.vault.pools)) }
      | _ => none
  | .settle run =>
      match s.runs.get run with
      | some (.planned period ngr pools) =>
          some ⟨dbAfter s.vault (settle s.vault period ngr pools), s.runs.erase run⟩
      | _ => none
  | .kill run => some { s with runs := s.runs.erase run }

/-- A pool before its first deposit. -/
def VaultPool.Genesis (p : VaultPool) : Prop :=
  p.totalAssets = 0 ∧ p.totalShares = 0 ∧ p.indexRay = VAULT.INITIAL_INDEX_RAY

/-- Before the first deposit. -/
def VaultSystem.initial (db : Db) (pools : Table PoolId VaultPool) : VaultSystem :=
  ⟨⟨db, pools, .empty, [], .empty⟩, .empty⟩

end Scadium.Vault
