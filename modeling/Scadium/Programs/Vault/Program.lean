/-
Scadium.Programs.Vault.Program — the term pools of `scadium_vault`
(`programs/scadium_vault/src/lib.rs`).

There is one pool for each term; the pool account, its positions and its
token account are found by the term, as their addresses are derived from
it. The house account exists from the start (`init_house`), so there is
one mint of SCAD for all pools. The SOL vaults, the bet receipts and the
reward claims of the same program do not touch a pool; what a reward claim
does to the treasury is one of the transfers of `Act.sendScad`.
-/
import Scadium.Lib.Table
import Scadium.Programs.Traced

namespace Scadium.Programs.Vault

open Scadium.Lib

abbrev Pubkey := Nat

/-- Share-price fixed-point scalar. -/
def RAY : Nat := 1000000000000000000

/-- Shares permanently locked on a pool's first deposit. -/
def MINIMUM_LIQUIDITY : Nat := 1000

/-- Early-exit penalty in bps of withdrawn assets. -/
def EARLY_EXIT_PENALTY_BPS : Nat := 1000

def SECONDS_PER_DAY : Int := 86400

def I64_MAX : Int := 2 ^ 63 - 1

inductive VaultError where
  | zeroAmount | notVaultOwner | notCosigner | insufficientFunds | paused
  deriving DecidableEq

/-- The term in days, which the pool is found by. -/
abbrev Term := UInt32

/-- Who holds a token account of SCAD; the treasury is the house's. -/
inductive Owner where
  | pool (term_days : Term)
  | treasury
  | user (u : Pubkey)
  deriving DecidableEq

structure House where
  authority : Pubkey
  cosigner : Pubkey
  paused : Bool

structure VaultPool where
  term_days : Term
  weight_bps : UInt16
  total_assets : Nat
  total_shares : Nat
  index_ray : Nat

/-- `owner` is `none` for `Pubkey::default()`, which nobody signs for. -/
structure UserVaultPosition where
  owner : Option Pubkey
  shares : Nat
  principal : Nat
  matures_at : Int

/-- What `init_if_needed` creates. -/
def UserVaultPosition.zeroed : UserVaultPosition := ⟨none, 0, 0, 0⟩

/-- A pool and the positions in it, one for each user. -/
structure PoolAccounts where
  pool : VaultPool
  positions : Table Pubkey UserVaultPosition

structure VaultState where
  house : House
  pools : Table Term PoolAccounts
  scad : Balances Owner

structure VaultDeposited where
  user : Pubkey
  amount : Nat
  shares : Nat
  matures_at : Int

structure VaultWithdrawn where
  user : Pubkey
  shares : Nat
  gross : Nat
  penalty : Nat
  net : Nat

structure VaultAccrued where
  amount : Nat
  index_ray : Nat

abbrev Result (α : Type) := Traced VaultError α

open Traced

/-! ## Vault math -/

def shares_for_deposit (assets index_ray : Nat) : Result Nat :=
  if assets = 0 ∨ index_ray = 0 then pure 0
  else do
    let scaled ← mul assets RAY
    div scaled index_ray

def assets_for_shares (shares index_ray : Nat) : Result Nat :=
  if shares = 0 ∨ index_ray = 0 then pure 0
  else do
    let scaled ← mul shares index_ray
    let a ← div scaled RAY
    clamp a

def apply_accrual (index_ray total_shares yield_assets : Nat) : Result Nat :=
  if total_shares = 0 ∨ yield_assets = 0 then pure index_ray
  else do
    let scaled ← mul yield_assets RAY
    let raise ← div scaled total_shares
    add U128_MAX index_ray raise

def early_exit_penalty (assets : Nat) : Result Nat := do
  let scaled ← mul assets EARLY_EXIT_PENALTY_BPS
  let penalty ← div scaled 10000
  cast penalty

/-! ## Instructions -/

/-- The account constraints that ask for the pool. -/
def VaultState.getPool (s : VaultState) (term : Term) : Outcome VaultError PoolAccounts :=
  match s.pools.get term with
  | some accounts => .ok accounts
  | none => .error .constraint

/-- The account constraints that ask for the caller's position. -/
def PoolAccounts.getPosition (accounts : PoolAccounts) (user : Pubkey) :
    Outcome VaultError UserVaultPosition :=
  match accounts.positions.get user with
  | some position => .ok position
  | none => .error .constraint

/-- `has_one = authority`, and other constraints on the accounts. -/
def constraint (c : Prop) [Decidable c] : Outcome VaultError Unit :=
  if c then .ok () else .error .constraint

/-- `init_vault_pool`; the pool and its token account are created, so they
must not be there. -/
def init_vault_pool (s : VaultState) (authority : Pubkey) (term_days : Term)
    (weight_bps : UInt16) : Result VaultState := do
  lift (constraint (s.house.authority = authority))
  lift (constraint ((s.pools.get term_days).isNone ∧ s.scad.get (.pool term_days) = 0))
  let pool : VaultPool := ⟨term_days, weight_bps, 0, 0, RAY⟩
  pure { s with pools := s.pools.set term_days ⟨pool, .empty⟩ }

/-- The shares of the depositor; those that a first deposit locks are taken
off. -/
def mintedShares (first : Bool) (shares : Nat) : Result Nat :=
  if first then do
    lift (require (MINIMUM_LIQUIDITY < shares) .insufficientFunds)
    sub shares MINIMUM_LIQUIDITY
  else pure shares

/-- `unix_timestamp + (term_days as i64) * SECONDS_PER_DAY` -/
def maturity (now : Int64) (term_days : Term) : Outcome VaultError Int :=
  let matures_at := now.toInt + (term_days.toNat : Int) * SECONDS_PER_DAY
  if matures_at ≤ I64_MAX then .ok matures_at else .error (.panic .overflow)

def vault_deposit (s : VaultState) (user : Pubkey) (term : Term) (now : Int64) (amount : Nat) :
    Result (VaultState × VaultDeposited) := do
  let accounts ← lift (s.getPool term)
  let pool := accounts.pool
  let position := (accounts.positions.get user).getD .zeroed
  lift (require (0 < amount) .zeroAmount)
  let shares ← shares_for_deposit amount pool.index_ray
  lift (require (0 < shares) .zeroAmount)
  let minted ← mintedShares (pool.total_shares = 0) shares
  let scad ← lift (transfer s.scad (.user user) (.pool term) amount)
  let total_shares ← add U128_MAX pool.total_shares shares
  let total_assets ← add U64_MAX pool.total_assets amount
  let owner := position.owner.getD user
  lift (require (owner = user) .notVaultOwner)
  let pos_shares ← add U128_MAX position.shares minted
  let principal ← add U64_MAX position.principal amount
  let matures_at ← lift (maturity now pool.term_days)
  let pool := { pool with total_shares := total_shares, total_assets := total_assets }
  let positions := accounts.positions.set user ⟨some owner, pos_shares, principal, matures_at⟩
  pure ({ s with pools := s.pools.set term ⟨pool, positions⟩, scad := scad },
    ⟨owner, amount, minted, matures_at⟩)

/-- Before maturity a part of the assets is kept. -/
def penaltyAt (now : Int64) (matures_at : Int) (gross : Nat) : Result Nat :=
  if now.toInt < matures_at then early_exit_penalty gross else pure 0

/-- The part of the principal that leaves with the shares. -/
def principalPortion (shares pos_shares pos_principal : Nat) : Result Nat :=
  if shares = pos_shares then pure pos_principal
  else do
    let scaled ← mul pos_principal shares
    let portion ← div scaled pos_shares
    cast portion

/-- What a withdrawal pays and keeps. -/
structure Exit where
  gross : Nat
  penalty : Nat
  net : Nat
  principal_portion : Nat

def exitAmounts (pool : VaultPool) (position : UserVaultPosition) (now : Int64) (shares : Nat) :
    Result Exit := do
  let gross ← assets_for_shares shares pool.index_ray
  let penalty ← penaltyAt now position.matures_at gross
  let net ← sub gross penalty
  let principal_portion ← principalPortion shares position.shares position.principal
  pure ⟨gross, penalty, net, principal_portion⟩

/-- The pool without the shares and the net assets: the penalty stays and
lifts the index. -/
def VaultPool.exit (pool : VaultPool) (shares : Nat) (e : Exit) : Result VaultPool := do
  let new_total_shares ← sub pool.total_shares shares
  let index_ray ← apply_accrual pool.index_ray new_total_shares e.penalty
  let total_assets ← saturatingSub pool.total_assets e.net
  pure { pool with
    total_shares := new_total_shares, total_assets := total_assets, index_ray := index_ray }

def UserVaultPosition.exit (position : UserVaultPosition) (shares : Nat) (e : Exit) :
    Result UserVaultPosition := do
  let pos_shares ← sub position.shares shares
  let pos_principal ← sub position.principal e.principal_portion
  pure { position with shares := pos_shares, principal := pos_principal }

/-- `if net > 0`: the pool signs for its token account. -/
def payOut (scad : Balances Owner) (term : Term) (user : Pubkey) (net : Nat) :
    Outcome VaultError (Balances Owner) :=
  if 0 < net then transfer scad (.pool term) (.user user) net else .ok scad

def vault_withdraw (s : VaultState) (user : Pubkey) (term : Term) (now : Int64) (shares : Nat) :
    Result (VaultState × VaultWithdrawn) := do
  let accounts ← lift (s.getPool term)
  let position ← lift (accounts.getPosition user)
  lift (require (0 < shares) .zeroAmount)
  lift (require (position.owner = some user) .notVaultOwner)
  lift (require (shares ≤ position.shares) .insufficientFunds)
  let e ← exitAmounts accounts.pool position now shares
  let pool ← accounts.pool.exit shares e
  let position ← position.exit shares e
  let scad ← lift (payOut s.scad term user e.net)
  let positions := accounts.positions.set user position
  pure ({ s with pools := s.pools.set term ⟨pool, positions⟩, scad := scad },
    ⟨user, shares, e.gross, e.penalty, e.net⟩)

def vault_accrue (s : VaultState) (cosigner : Pubkey) (term : Term) (amount : Nat) :
    Result (VaultState × VaultAccrued) := do
  let accounts ← lift (s.getPool term)
  let pool := accounts.pool
  lift (require (¬ s.house.paused) .paused)
  lift (require (cosigner = s.house.cosigner) .notCosigner)
  lift (require (0 < amount) .zeroAmount)
  lift (require (0 < pool.total_shares) .insufficientFunds)
  let scad ← lift (transfer s.scad .treasury (.pool term) amount)
  let index_ray ← apply_accrual pool.index_ray pool.total_shares amount
  let total_assets ← add U64_MAX pool.total_assets amount
  let pool := { pool with index_ray := index_ray, total_assets := total_assets }
  pure ({ s with pools := s.pools.set term ⟨pool, accounts.positions⟩, scad := scad },
    ⟨amount, index_ray⟩)

def set_paused (s : VaultState) (authority : Pubkey) (paused : Bool) : Result VaultState := do
  lift (constraint (s.house.authority = authority))
  pure { s with house := { s.house with paused := paused } }

/-! ## Runs -/

/-- A transaction: an instruction of the program, or a transfer of SCAD that
the program does not make, out of any account but a pool's. -/
inductive Act where
  | initVaultPool (authority : Pubkey) (term_days : Term) (weight_bps : UInt16)
  | vaultDeposit (user : Pubkey) (term : Term) (now : Int64) (amount : UInt64)
  | vaultWithdraw (user : Pubkey) (term : Term) (now : Int64) (shares : UInt64)
  | vaultAccrue (cosigner : Pubkey) (term : Term) (amount : UInt64)
  | setPaused (authority : Pubkey) (paused : Bool)
  | sendScad (src dst : Owner) (amount : UInt64)
  deriving DecidableEq

def Owner.isPool : Owner → Bool
  | .pool _ => true
  | _ => false

def exec (s : VaultState) : Act → Result VaultState
  | .initVaultPool authority term_days weight_bps =>
      init_vault_pool s authority term_days weight_bps
  | .vaultDeposit user term now amount => do
      let r ← vault_deposit s user term now amount.toNat
      pure r.1
  | .vaultWithdraw user term now shares => do
      let r ← vault_withdraw s user term now shares.toNat
      pure r.1
  | .vaultAccrue cosigner term amount => do
      let r ← vault_accrue s cosigner term amount.toNat
      pure r.1
  | .setPaused authority paused => set_paused s authority paused
  | .sendScad src dst amount => do
      lift (constraint (src.isPool = false))
      let scad ← lift (transfer s.scad src dst amount.toNat)
      pure { s with scad := scad }

/-- One transaction that lands. -/
def step (s : VaultState) (a : Act) : Option VaultState := (exec s a).outcome.toOption

/-- Before any pool is there. -/
def VaultState.initial (house : House) (scad : Balances Owner) : VaultState :=
  ⟨house, .empty, scad⟩

theorem step_ok {s s' : VaultState} {a : Act} :
    step s a = some s' ↔ (exec s a).outcome = .ok s' := toOption_eq_some

end Scadium.Programs.Vault
