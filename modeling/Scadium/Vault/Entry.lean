/-
Scadium.Vault.Entry — what a deposit is worth once it is shares, in the pools of
`scadium_vault` and in the off-chain vault.

Both mint the amount divided by the index, rounded down, so a depositor leaves
behind what the division leaves over, rounded up. The tests of both have it as
one unit at most, at an index of three; but it may be anything below the price
of a share. The minimum that a first deposit on chain locks keeps that price
down, and does not keep it at one.
-/
import Scadium.Vault.Storable
import Scadium.Programs.Vault.Safety

/-! ## On chain -/

namespace Scadium.Programs.Vault

open Scadium.Lib Scadium.Lib.ShareIndex Traced

/-- A deposit after the pool's first is worth what was paid but for one unit at
most. -/
def FairDeposit (s : VaultState) : Act → Prop
  | .vaultDeposit user term now amount => ∀ s' event a,
      (vault_deposit s user term now amount.toNat).outcome = .ok (s', event) →
      s.pools.get term = some a → a.pool.total_shares ≠ 0 →
        ∃ worth, (assets_for_shares event.shares a.pool.index_ray).outcome = .ok worth ∧
          amount.toNat - 1 ≤ worth
  | _ => True

/-- The division by the index leaves at most one unit over. -/
def LeavesOne (s : VaultState) : Act → Prop
  | .vaultDeposit _ term _ amount => ∀ a ∈ s.pools.get term, a.pool.total_shares ≠ 0 →
      amount.toNat * RAY % a.pool.index_ray ≤ RAY
  | _ => True

instance (s : VaultState) : (act : Act) → Decidable (LeavesOne s act)
  | .vaultDeposit _ term _ _ => inferInstanceAs (Decidable (∀ a ∈ s.pools.get term, _ → _))
  | .initVaultPool .. | .vaultWithdraw .. | .vaultAccrue .. | .setPaused .. | .sendScad .. =>
      .isTrue trivial

variable {s s' : VaultState} {user : Pubkey} {term : Term} {now : Int64} {amount : Nat}
  {event : VaultDeposited} {a : PoolAccounts}

/-- After the first deposit all shares are the depositor's. -/
theorem vault_deposit_minted
    (h : (vault_deposit s user term now amount).outcome = .ok (s', event))
    (ha : s.pools.get term = some a) (hlater : a.pool.total_shares ≠ 0) :
    0 < amount ∧ amount ≤ U64_MAX ∧ event.shares = amount * RAY / a.pool.index_ray := by
  simp only [vault_deposit, Traced.bind_ok, outcome_lift, require_ok, getPool_ok, transfer_ok,
    add_ok, outcome_pure, Except.ok.injEq, Prod.mk.injEq] at h
  obtain ⟨_, ha', -, hpos, shares, hshares, -, -, minted, hminted, _, -, _, -,
    _, ⟨_, -⟩, -, -, _, -, _, -, _, -, -, rfl⟩ := h
  cases ha.symm.trans ha'
  have hmint := mintedShares_ok hminted
  have hall : shares = minted := by simpa [hlater] using hmint
  refine ⟨hpos, by omega, ?_⟩
  rw [← shares_for_deposit_ok hshares, hall]

/-- What shares bought for an amount are worth does not overflow. -/
theorem assets_for_minted {index_ray : Nat} (hle : amount ≤ U64_MAX) :
    (assets_for_shares (amount * RAY / index_ray) index_ray).outcome =
      .ok (amount * RAY / index_ray * index_ray / RAY) := by
  have hfloor := Nat.div_mul_le_self (amount * RAY) index_ray
  have hfits : amount * RAY ≤ U128_MAX := (Nat.mul_le_mul_right RAY hle).trans (by decide)
  have hworth : amount * RAY / index_ray * index_ray / RAY ≤ amount := by
    refine Nat.div_le_of_le_mul ?_
    rwa [Nat.mul_comm RAY]
  unfold assets_for_shares
  split
  case isTrue hzero =>
    rcases hzero with hzero | rfl
    · simp [hzero]
    · simp
  case isFalse =>
    simp only [Traced.bind_ok, mul_ok, div_ok, clamp_ok]
    refine ⟨_, ⟨hfloor.trans hfits, rfl⟩, _, ⟨by decide, rfl⟩, ?_⟩
    rw [Nat.min_eq_left (hworth.trans hle)]

theorem fairDeposit_iff {act : Act} (h : step s act = some s') :
    FairDeposit s act ↔ LeavesOne s act := by
  cases act with
  | vaultDeposit =>
    have hexec := step_ok.mp h
    simp only [exec, Traced.bind_ok, outcome_pure, Except.ok.injEq] at hexec
    obtain ⟨⟨t, event⟩, hdeposit, -⟩ := hexec
    constructor
    · intro hfair a ha hlater
      obtain ⟨hpos, hle, hshares⟩ := vault_deposit_minted hdeposit ha hlater
      obtain ⟨_, hworth, hge⟩ := hfair t event a hdeposit ha hlater
      rw [hshares, assets_for_minted hle] at hworth
      cases hworth
      exact (bought_fair_iff (by decide) hpos).mp hge
    · intro hleaves t' event' a hdeposit' ha hlater
      obtain ⟨hpos, hle, hshares⟩ := vault_deposit_minted hdeposit' ha hlater
      rw [hshares]
      exact ⟨_, assets_for_minted hle, (bought_fair_iff (by decide) hpos).mpr (hleaves a ha hlater)⟩
  | _ => exact Iff.rfl

end Scadium.Programs.Vault

/-! ## Off chain -/

namespace Scadium.Vault

open Scadium.Lib Scadium.Lib.ShareIndex Scadium.Prisma Scadium.Prisma.Committed Scadium.Shared

/-- A deposit is worth what was paid but for one unit at most. -/
def FairDeposit (s : VaultSystem) : Act → Prop
  | .deposit userId poolId amount now positionId => ∀ v r pool,
      deposit s.vault userId poolId amount now positionId = .ok (v, r) →
      s.vault.pools.get poolId = some pool →
        amount.toNat - 1 ≤ assetsForShares r.shares pool.indexRay
  | _ => True

/-- The division by the index leaves at most one unit over. -/
def LeavesOne (s : VaultSystem) : Act → Prop
  | .deposit _ poolId amount _ _ => ∀ pool ∈ s.vault.pools.get poolId,
      amount.toNat * VAULT.RAY % pool.indexRay ≤ VAULT.RAY
  | _ => True

instance (s : VaultSystem) : (act : Act) → Decidable (LeavesOne s act)
  | .deposit _ poolId _ _ _ =>
      inferInstanceAs (Decidable (∀ pool ∈ s.vault.pools.get poolId, _))
  | .withdraw .. | .accrue .. | .findRound .. | .aggregate .. | .findPools .. | .settle ..
  | .kill .. => .isTrue trivial

theorem deposit_minted {s v : VaultDb} {userId : UserId} {poolId : PoolId} {amount : Int}
    {now : Time} {positionId : PositionId} {r : DepositResult} {pool : VaultPool}
    (h : deposit s userId poolId amount now positionId = .ok (v, r))
    (hpool : s.pools.get poolId = some pool) :
    0 < amount.toNat ∧ r.shares = amount.toNat * VAULT.RAY / pool.indexRay := by
  simp only [deposit, bind_ok, ensure_ok, orThrow_ok, sharesForDeposit_eq] at h
  obtain ⟨-, hmin, _, hpool', -, -, -, -, _, -, _, -, -, -, hr⟩ := h
  cases hr
  cases hpool.symm.trans hpool'
  refine ⟨?_, rfl⟩
  unfold VAULT.MIN_DEPOSIT_SCAD_BASE at hmin
  omega

theorem fairDeposit_iff {s s' : VaultSystem} {act : Act} (h : step s act = some s') :
    FairDeposit s act ↔ LeavesOne s act := by
  cases act with
  | deposit =>
    simp only [step] at h
    split at h
    case h_1 r hr =>
      constructor
      · intro hfair pool hpool
        obtain ⟨hpos, hshares⟩ := deposit_minted hr hpool
        have hge := hfair r.1 r.2 pool hr hpool
        rw [hshares, assetsForShares_eq] at hge
        exact (bought_fair_iff (by decide) hpos).mp hge
      · intro hleaves v r' pool hr' hpool
        obtain ⟨hpos, hshares⟩ := deposit_minted hr' hpool
        rw [hshares, assetsForShares_eq]
        exact (bought_fair_iff (by decide) hpos).mpr (hleaves pool hpool)
    case h_2 => cases h
  | _ => exact Iff.rfl

/-- In every run of the vault, and in every run of the program, all deposits are
worth what was paid but for one unit at most, on chain those after a pool's
first, exactly if the division by the index leaves at most one unit over for
each. -/
theorem deposits_fair_iff {db : Db} {pools : Table PoolId VaultPool} {es : List Act}
    {s : VaultSystem} {house : Programs.Vault.House} {scad : Balances Programs.Vault.Owner}
    {txs : List Programs.Vault.Act} {t : Programs.Vault.VaultState}
    (hrun : run step (.initial db pools) es = some s)
    (hchain : run Programs.Vault.step (.initial house scad) txs = some t) :
    (Along step FairDeposit (.initial db pools) es ↔
        Along step LeavesOne (.initial db pools) es) ∧
      (Along Programs.Vault.step Programs.Vault.FairDeposit (.initial house scad) txs ↔
        Along Programs.Vault.step Programs.Vault.LeavesOne (.initial house scad) txs) :=
  ⟨along_congr (fun _ _ _ => fairDeposit_iff) hrun,
    along_congr (fun _ _ _ => Programs.Vault.fairDeposit_iff) hchain⟩

/-! ## After an early exit -/

namespace Entry.Sample

/-- The first staker leaves early: its penalty raises the index to 3.4. -/
def raised : List Act := [.deposit 1 1 10000000000 0 101, .withdraw 1 101 (some 9600000000) 0]

/-- And on chain, to a share that is worth 200. -/
def raisedOnChain : List Programs.Vault.Act :=
  [.initVaultPool 1 30 1500, .vaultDeposit 7 30 0 2000000, .vaultWithdraw 7 30 90000 1999000]

end Entry.Sample

open Entry

/-- Off chain a deposit after that loses four units; on chain one of 1000 units
loses a fifth. -/
theorem deposit_loses :
    (∃ s s' pool, run step (.initial sampleDb samplePools) Sample.raised = some s ∧
      step s (.deposit 2 1 1000000003 0 102) = some s' ∧ s.vault.pools.get 1 = some pool ∧
      pool.indexRay < COLUMN_LIMIT ∧ ¬ FairDeposit s (.deposit 2 1 1000000003 0 102)) ∧
    ∃ s s', run Programs.Vault.step
        (.initial Programs.Vault.sampleHouse Programs.Vault.sampleScad) Sample.raisedOnChain =
          some s ∧
      Programs.Vault.step s (.vaultDeposit 8 30 90000 1000) = some s' ∧
      ¬ Programs.Vault.FairDeposit s (.vaultDeposit 8 30 90000 1000) := by
  have hoff : (run step (.initial sampleDb samplePools) Sample.raised).any (fun s =>
      (step s (.deposit 2 1 1000000003 0 102)).isSome && (s.vault.pools.get 1).any fun pool =>
        decide (pool.indexRay < COLUMN_LIMIT ∧
          ¬ LeavesOne s (.deposit 2 1 1000000003 0 102))) = true := by
    decide +kernel
  have hon : (run Programs.Vault.step
      (.initial Programs.Vault.sampleHouse Programs.Vault.sampleScad) Sample.raisedOnChain).any
        (fun s => (Programs.Vault.step s (.vaultDeposit 8 30 90000 1000)).isSome &&
          decide (¬ Programs.Vault.LeavesOne s (.vaultDeposit 8 30 90000 1000))) = true := by
    decide +kernel
  refine ⟨?_, ?_⟩
  · obtain ⟨s, hs, h⟩ := (Option.any_eq_true _ _).mp hoff
    obtain ⟨hstep, h⟩ := Bool.and_eq_true_iff.mp h
    obtain ⟨s', hs'⟩ := Option.isSome_iff_exists.mp hstep
    obtain ⟨pool, hpool, h⟩ := (Option.any_eq_true _ _).mp h
    obtain ⟨hfits, hover⟩ := of_decide_eq_true h
    exact ⟨s, s', pool, hs, hs', hpool, hfits, (fairDeposit_iff hs').not.mpr hover⟩
  · obtain ⟨s, hs, h⟩ := (Option.any_eq_true _ _).mp hon
    obtain ⟨hstep, hover⟩ := Bool.and_eq_true_iff.mp h
    obtain ⟨s', hs'⟩ := Option.isSome_iff_exists.mp hstep
    exact ⟨s, s', hs, hs',
      (Programs.Vault.fairDeposit_iff hs').not.mpr (of_decide_eq_true hover)⟩

/-- Deposits of amounts that the raised index nearly divides. -/
theorem deposits_fair_iff_raised :
    Along step FairDeposit (.initial sampleDb samplePools)
        (Sample.raised ++ [.deposit 2 1 1000000000 0 102]) ∧
      Along Programs.Vault.step Programs.Vault.FairDeposit
        (.initial Programs.Vault.sampleHouse Programs.Vault.sampleScad)
        (Sample.raisedOnChain ++ [.vaultDeposit 8 30 90000 2009]) := by
  have hoff : (run step (.initial sampleDb samplePools)
      (Sample.raised ++ [.deposit 2 1 1000000000 0 102])).isSome = true := by
    decide +kernel
  have hon : (run Programs.Vault.step
      (.initial Programs.Vault.sampleHouse Programs.Vault.sampleScad)
      (Sample.raisedOnChain ++ [.vaultDeposit 8 30 90000 2009])).isSome = true := by
    decide +kernel
  obtain ⟨s, hs⟩ := Option.isSome_iff_exists.mp hoff
  obtain ⟨t, ht⟩ := Option.isSome_iff_exists.mp hon
  obtain ⟨hvault, hprogram⟩ := deposits_fair_iff hs ht
  refine ⟨hvault.mpr ?_, hprogram.mpr ?_⟩
  · decide +kernel
  · decide +kernel

end Scadium.Vault
