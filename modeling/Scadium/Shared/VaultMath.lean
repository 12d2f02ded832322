/-
Scadium.Shared.VaultMath — the share math of the SCAD vault, dividends, block
rewards and play-rates (`packages/shared/src/constants.ts`), and the draw of a
block's big reward (`packages/fair/src/engine-draw.ts`).

The columns these functions are called on never hold a negative number, so
`bigint`s are naturals here, except a net revenue, which may be negative.
-/
import Scadium.Shared.Constants

namespace Scadium.Shared

def USD_PER_SCAD : Rat := 1 / 10

namespace VAULT

def RAY : Nat := 1000000000000000000
def INITIAL_INDEX_RAY : Nat := 1000000000000000000
def YIELD_NGR_BPS : Nat := 800
def EARLY_EXIT_PENALTY_BPS : Nat := 1000
def MIN_DEPOSIT_SCAD_BASE : Nat := 1000000000
def MIN_ACCRUAL_SCAD_BASE : Nat := 1000000

end VAULT

namespace JETON

def LAMPORTS_PER_USD : Nat := 10000000

end JETON

namespace ENGINE

def DISTRIBUTION_INTERVAL_MS : Nat := 3600000

end ENGINE

def vaultYieldSliceLamports (ngrLamports : Int) : Nat :=
  if ngrLamports ≤ 0 then 0 else ngrLamports.toNat * VAULT.YIELD_NGR_BPS / 10000

/-- `BigInt(Math.round(10 ** LOTTERY.SCAD_DECIMALS / USD_PER_SCAD))` -/
def scadBasePerUsd : Nat := (mathRound (10 ^ 9 / USD_PER_SCAD)).toNat

def lamportsToScadBase (lamports : Nat) : Nat :=
  if lamports = 0 then 0 else lamports * scadBasePerUsd / JETON.LAMPORTS_PER_USD

def sharesForDeposit (assets indexRay : Nat) : Nat :=
  if assets = 0 ∨ indexRay = 0 then 0 else assets * VAULT.RAY / indexRay

def assetsForShares (shares indexRay : Nat) : Nat :=
  if shares = 0 ∨ indexRay = 0 then 0 else shares * indexRay / VAULT.RAY

def applyAccrual (indexRay totalShares yieldAssets : Nat) : Nat :=
  if totalShares = 0 ∨ yieldAssets = 0 then indexRay
  else indexRay + yieldAssets * VAULT.RAY / totalShares

def earlyExitPenalty (assets : Nat) : Nat :=
  if assets = 0 then 0 else assets * VAULT.EARLY_EXIT_PENALTY_BPS / 10000

/-! The guards are for a division that does not come up, or make no
difference. -/

theorem sharesForDeposit_eq (assets indexRay : Nat) :
    sharesForDeposit assets indexRay = assets * VAULT.RAY / indexRay := by
  unfold sharesForDeposit
  split
  case isTrue h =>
    rcases h with rfl | rfl
    · simp
    · simp
  case isFalse => rfl

theorem assetsForShares_eq (shares indexRay : Nat) :
    assetsForShares shares indexRay = shares * indexRay / VAULT.RAY := by
  unfold assetsForShares
  split
  case isTrue h =>
    rcases h with rfl | rfl
    · simp
    · simp
  case isFalse => rfl

theorem applyAccrual_eq (indexRay totalShares yieldAssets : Nat) :
    applyAccrual indexRay totalShares yieldAssets =
      indexRay + yieldAssets * VAULT.RAY / totalShares := by
  unfold applyAccrual
  split
  case isTrue h =>
    rcases h with rfl | rfl
    · simp
    · simp
  case isFalse => rfl

theorem earlyExitPenalty_eq (assets : Nat) : earlyExitPenalty assets = assets / 10 := by
  unfold earlyExitPenalty VAULT.EARLY_EXIT_PENALTY_BPS
  split
  case isTrue h => rw [h]
  case isFalse => omega

/-! ## Dividends, block rewards and play-rates -/

namespace USDS

def BASE_PER_USD : Nat := 1000000

end USDS

namespace SCAD

def P2E_POOL_BASE : Nat := 500000000 * 1000000000

end SCAD

namespace ENGINE

def DIVIDEND_NGR_BPS : Nat := 1200
def MIN_DIVIDEND_POOL_USDS_BASE : Nat := 1000
def BIG_REWARD_BPS : Nat := 1000
def STAKE_PLAYRATE_BPS : Nat := 100

end ENGINE

namespace MINING

/-- 2026-07-01 -/
def GENESIS_MS : Nat := 1782864000000
def HOURS_PER_HALVING : Nat := 4 * 365 * 24
def MS_PER_HALVING : Nat := 4 * 365 * 24 * 60 * 60 * 1000

end MINING

def lamportsToUsdsBase (lamports : Nat) : Nat :=
  if lamports = 0 then 0 else lamports * USDS.BASE_PER_USD / JETON.LAMPORTS_PER_USD

def dividendPoolUsdsBase (ngrLamports : Int) : Nat :=
  if ngrLamports ≤ 0 then 0
  else lamportsToUsdsBase (ngrLamports.toNat * ENGINE.DIVIDEND_NGR_BPS / 10000)

def GENESIS_BLOCK_REWARD_BASE : Nat := SCAD.P2E_POOL_BASE / 2 / MINING.HOURS_PER_HALVING

/-- Before the genesis the era is 0. -/
def emissionEraAt (nowMs : Nat) : Nat := (nowMs - MINING.GENESIS_MS) / MINING.MS_PER_HALVING

/-- Once the pool is exhausted there is no reward. -/
def blockRewardAt (nowMs totalEmittedBase : Nat) : Nat :=
  min (GENESIS_BLOCK_REWARD_BASE >>> emissionEraAt nowMs) (SCAD.P2E_POOL_BASE - totalEmittedBase)

def activePlayRate (wageredLamports : Nat) : Nat := wageredLamports * 1000 / 1000

def stakePlayRate (stakedScadBase : Nat) : Nat :=
  stakedScadBase * ENGINE.STAKE_PLAYRATE_BPS / 10000

def blockShare (playRate totalPlayRate reward : Nat) : Nat :=
  if playRate = 0 ∨ totalPlayRate = 0 ∨ reward = 0 then 0 else reward * playRate / totalPlayRate

/-- The last one, if the ticket is beyond all weights. -/
def weightedWinnerIndex (ticket : Nat) (weights : List Nat) : Nat := walk 0 0 weights
where
  walk (cumulative i : Nat) : List Nat → Nat
    | [] => i - 1
    | w :: ws => if ticket < cumulative + w then i else walk (cumulative + w) (i + 1) ws

end Scadium.Shared
