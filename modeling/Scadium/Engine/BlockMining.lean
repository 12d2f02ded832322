/-
Scadium.Engine.BlockMining — the hourly block
(`engine/block-mining.service.ts`).

A run reads the block of the last completed hour, what was emitted so far and
the play-rates of the hour, one after the other, and then settles the block:
empty, or in a transaction that mints it. What users wagered in the hour is
an answer of the environment, and so is the digest of the fresh seed that the
big reward is drawn with. Left out: the seed and its hash, which the block
publishes.
-/
import Scadium.Lib.Calls
import Scadium.Queue.Periods
import Scadium.Shared.VaultMath
import Mathlib.Data.List.Sort

namespace Scadium.Engine

open Scadium.Lib Scadium.Prisma Scadium.Queue Scadium.Shared

namespace BlockMining

structure Account where
  scadiumStaked : Nat
  scadiumBalance : Nat
  deriving DecidableEq

structure EngineBlock where
  rewardScad : Nat
  totalPlayRate : Nat
  participantCount : Nat
  winnerId : Option UserId
  bigRewardScad : Nat
  distributed : Bool
  deriving DecidableEq

/-- A share, and its ledger row with reason `block_reward`. -/
structure EngineBlockShare where
  period : Hour
  userId : UserId
  playRate : Nat
  shareScad : Nat
  deriving DecidableEq

/-- A ledger row with reason `big_reward`. -/
structure BigReward where
  period : Hour
  userId : UserId
  rewardScad : Nat
  deriving DecidableEq

structure State where
  now : Time
  users : Table UserId Account
  blocks : Table Hour EngineBlock
  shares : List EngineBlockShare
  bigRewards : List BigReward
  /-- `EmissionState.totalEmittedScad`, 0 without the row -/
  totalEmittedScad : Nat

/-- What the environment answers in a step. -/
structure Answer where
  /-- what each user wagered in the hour -/
  wagers : List (UserId × Nat)
  /-- the digest of the seed and the period -/
  roll : Nat
  /-- the transaction fails -/
  failed : Bool

abbrev PlayRates := List (UserId × Nat)

/-- What a call has still to do. -/
inductive Call where
  | mineBlock
  | readEmission (period : Hour)
  | wagers (period : Hour) (reward : Nat)
  | findStakers (period : Hour) (reward : Nat) (active : PlayRates)
  | settle (period : Hour) (reward : Nat) (playRates : PlayRates)
  /-- whatever else writes an account -/
  | writeUser (userId : UserId) (user : Account)
  | tick (now : Time)
  deriving DecidableEq

/-- `playRates.set` of a user that wagered. -/
def setActive (rates : PlayRates) (w : UserId × Nat) : PlayRates :=
  let pr := activePlayRate w.2
  if 0 < pr then insertWith (fun _ => pr) w.1 rates else rates

def activeRates (wagers : List (UserId × Nat)) : PlayRates := wagers.foldl setActive []

/-- A staker's rate on top of what is there. -/
def addStake (rates : PlayRates) (staker : UserId × Account) : PlayRates :=
  let pr := stakePlayRate staker.2.scadiumStaked
  if 0 < pr then insertWith (fun old => old.getD 0 + pr) staker.1 rates else rates

def totalPlayRate (rates : PlayRates) : Nat := weight Prod.snd rates

def bigReward (reward : Nat) : Nat := reward * ENGINE.BIG_REWARD_BPS / 10000

/-- In the order of the ids. -/
def ordered (rates : PlayRates) : PlayRates := rates.insertionSort (·.1 ≤ ·.1)

/-- The pro-rata shares of the block, without those that are zero. -/
def sharesOf (period : Hour) (reward : Nat) (rates : PlayRates) : List EngineBlockShare :=
  ((ordered rates).map fun p => ⟨period, p.1, p.2,
    blockShare p.2 (totalPlayRate rates) (reward - bigReward reward)⟩).filter fun s => 0 < s.shareScad

/-- The user whose play-rate holds the ticket. -/
def winnerId (roll reward : Nat) (rates : PlayRates) : Option UserId :=
  if 0 < bigReward reward then
    ((ordered rates)[weightedWinnerIndex (roll % totalPlayRate rates)
      ((ordered rates).map Prod.snd)]?).map Prod.fst
  else none

/-- The big reward of the block, if there is one. -/
def bigRewardsOf (roll : Nat) (period : Hour) (reward : Nat) (rates : PlayRates) : List BigReward :=
  ((winnerId roll reward rates).map (⟨period, ·, bigReward reward⟩)).toList

/-- What the block credits. -/
def creditsOf (roll : Nat) (period : Hour) (reward : Nat) (rates : PlayRates) :
    List (UserId × Nat) :=
  (sharesOf period reward rates).map (fun s => (s.userId, s.shareScad)) ++
    (bigRewardsOf roll period reward rates).map fun b => (b.userId, b.rewardScad)

namespace State

variable (a : State)

def settled (period : Hour) : Bool := (a.blocks.get period).any (·.distributed)

/-- `bet.groupBy`: a bet belongs to an account. -/
def wagersOf (answer : Answer) : List (UserId × Nat) :=
  answer.wagers.filter fun w => (a.users.get w.1).isSome

/-- Nothing to mine. The other columns keep what they hold. -/
def settleEmpty (period : Hour) (rates : PlayRates) : State :=
  let block := (a.blocks.get period).getD ⟨0, 0, 0, none, 0, false⟩
  { a with
    blocks := a.blocks.set period { block with
      distributed := true
      rewardScad := 0
      totalPlayRate := BlockMining.totalPlayRate rates } }

/-- `applyBalanceDelta` per credit. -/
def creditAll (users : Table UserId Account) (credits : List (UserId × Nat)) :
    Option (Table UserId Account) :=
  users.updateAll Prod.fst
    (fun c user => { user with scadiumBalance := user.scadiumBalance + c.2 }) credits

/-- The transaction that mints the block. -/
def settleBlock (answer : Answer) (period : Hour) (reward : Nat) (rates : PlayRates) :
    Option State :=
  if a.settled period then none
  else
    let shares := sharesOf period reward rates
    let bigRewards := bigRewardsOf answer.roll period reward rates
    let bigMinted := weight BigReward.rewardScad bigRewards
    let minted := weight EngineBlockShare.shareScad shares + bigMinted
    (creditAll a.users (creditsOf answer.roll period reward rates)).map fun users =>
      { a with
        users := users
        shares := shares ++ a.shares
        bigRewards := bigRewards ++ a.bigRewards
        totalEmittedScad := a.totalEmittedScad + minted
        blocks := a.blocks.set period
          ⟨minted, BlockMining.totalPlayRate rates, shares.length,
            bigRewards.head?.map BigReward.userId, bigMinted, true⟩ }

def settle (answer : Answer) (period : Hour) (reward : Nat) (rates : PlayRates) : Option State :=
  if answer.failed then none
  else if reward = 0 ∨ BlockMining.totalPlayRate rates = 0 ∨ rates = [] then
    some (a.settleEmpty period rates)
  else a.settleBlock answer period reward rates

end State

/-- One step of a call. -/
def Call.step (a : State) (answer : Answer) : Call → State × Option Call
  | .mineBlock =>
      let period := lastCompletedHourPeriod a.now
      if a.settled period then (a, none) else (a, some (.readEmission period))
  | .readEmission period =>
      (a, some (.wagers period (blockRewardAt (period * HOUR_MS) a.totalEmittedScad)))
  | .wagers period reward =>
      (a, some (.findStakers period reward (activeRates (a.wagersOf answer))))
  | .findStakers period reward active =>
      (a, some (.settle period reward
        ((a.users.filter fun _ user => 0 < user.scadiumStaked).entries.foldl addStake active)))
  | .settle period reward rates => ((a.settle answer period reward rates).getD a, none)
  | .writeUser userId user => ({ a with users := a.users.set userId user }, none)
  | .tick now => ({ a with now := max a.now now }, none)

/-- A call may begin so. -/
def Call.isEntry : Call → Bool
  | .readEmission .. | .wagers .. | .findStakers .. | .settle .. => false
  | .mineBlock | .writeUser .. | .tick .. => true

def service : Calls.Service State Call Answer where
  begins _ call := call.isEntry
  step a answer call := some (call.step a answer)

/-- No account and no block. -/
def State.initial : State := ⟨0, .empty, .empty, [], [], 0⟩

end BlockMining

end Scadium.Engine
