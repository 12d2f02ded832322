/-
Scadium.Queue.Splits — the hourly payouts as fair splits.

Dividends, block rewards and vault yield are each split by weight and rounded
down; the rows that pay nothing are skipped. That a recipient has one row is
what `findMany` and the keys of a `Map` are relied on for.
-/
import Scadium.Engine.Distribution
import Scadium.Engine.Emission
import Scadium.Vault.Service

namespace Scadium.Queue

open Scadium.Lib Scadium.Prisma Scadium.Shared Scadium.Engine Scadium.Vault

theorem dividends_fair (period : Hour) (ngr : Int) {stakers : List (UserId × Distribution.Account)}
    (hnodup : (stakers.map Prod.fst).Nodup) :
    FairSplit (dividendPoolUsdsBase ngr) Prod.fst (fun s => s.2.scadiumStaked) stakers
      Distribution.DistributionClaim.userId Distribution.DistributionClaim.shareUsds
      (Distribution.shares period ngr stakers) :=
  fairSplit_floors hnodup (fun _ => rfl) fun _ => rfl

theorem block_fair (period : Hour) (reward : Nat) {rates : BlockMining.PlayRates}
    (hnodup : (rates.map Prod.fst).Nodup) :
    FairSplit (reward - BlockMining.bigReward reward) Prod.fst Prod.snd rates
      BlockMining.EngineBlockShare.userId BlockMining.EngineBlockShare.shareScad
      (BlockMining.sharesOf period reward rates) := by
  have hperm : (BlockMining.ordered rates).Perm rates := List.perm_insertionSort _ rates
  have hordered : ((BlockMining.ordered rates).map Prod.fst).Nodup :=
    (hperm.map Prod.fst).nodup_iff.mpr hnodup
  refine FairSplit.perm ?_ hperm
  refine fairSplit_floors hordered (fun _ => rfl) fun p => ?_
  rw [BlockMining.weight_ordered]
  exact BlockMining.blockShare_eq _ _ _

theorem accrual_fair (ngr : Int) {pools : List (PoolId × VaultPool)}
    (hnodup : (pools.map Prod.fst).Nodup) :
    FairSplit (totalYield ngr) Prod.fst (fun p => poolWeight p.2) pools
      Credit.poolId Credit.poolYield (credits ngr pools) :=
  fairSplit_floors hnodup (fun _ => rfl) fun _ => rfl

/-- Whatever the pool and the weights, each of the three splits is fair; and a
block with its big reward stays within the reward. -/
theorem splits_fair (period : Hour) (ngr : Int) {stakers : List (UserId × Distribution.Account)}
    (hstakers : (stakers.map Prod.fst).Nodup) (reward roll : Nat) {rates : BlockMining.PlayRates}
    (hrates : (rates.map Prod.fst).Nodup) {pools : List (PoolId × VaultPool)}
    (hpools : (pools.map Prod.fst).Nodup) :
    FairSplit (dividendPoolUsdsBase ngr) Prod.fst (fun s => s.2.scadiumStaked) stakers
        Distribution.DistributionClaim.userId Distribution.DistributionClaim.shareUsds
        (Distribution.shares period ngr stakers) ∧
      (FairSplit (reward - BlockMining.bigReward reward) Prod.fst Prod.snd rates
          BlockMining.EngineBlockShare.userId BlockMining.EngineBlockShare.shareScad
          (BlockMining.sharesOf period reward rates) ∧
        weight BlockMining.EngineBlockShare.shareScad (BlockMining.sharesOf period reward rates) +
          weight BlockMining.BigReward.rewardScad
            (BlockMining.bigRewardsOf roll period reward rates) ≤ reward) ∧
      FairSplit (totalYield ngr) Prod.fst (fun p => poolWeight p.2) pools
        Credit.poolId Credit.poolYield (credits ngr pools) :=
  ⟨dividends_fair period ngr hstakers,
    ⟨block_fair period reward hrates, BlockMining.block_le roll period reward rates⟩,
    accrual_fair ngr hpools⟩

/-- Three stakers share 12000 base units, two miners a block of 100, two pools
a yield. -/
theorem splits_fair_sample :
    (Distribution.shares 7 1000000 [(1, ⟨1, 0⟩), (2, ⟨1, 0⟩), (3, ⟨5, 0⟩)]).map
        (·.shareUsds) = [1714, 1714, 8571] ∧
      FairSplit (dividendPoolUsdsBase 1000000) Prod.fst
        (fun s : UserId × Distribution.Account => s.2.scadiumStaked)
        [(1, ⟨1, 0⟩), (2, ⟨1, 0⟩), (3, ⟨5, 0⟩)]
        Distribution.DistributionClaim.userId Distribution.DistributionClaim.shareUsds
        (Distribution.shares 7 1000000 [(1, ⟨1, 0⟩), (2, ⟨1, 0⟩), (3, ⟨5, 0⟩)]) := by
  refine ⟨by decide +kernel, ?_⟩
  have hrates : (([(1, 2), (2, 4)] : BlockMining.PlayRates).map Prod.fst).Nodup := by decide
  have hpools : (([(1, ⟨30, 0, 5, VAULT.INITIAL_INDEX_RAY, 1000, 0, true⟩)] :
      List (PoolId × VaultPool)).map Prod.fst).Nodup := by decide
  exact (splits_fair 7 1000000 (by decide) 100 3 hrates hpools).1

end Scadium.Queue
