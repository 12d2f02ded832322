/-
Scadium.Vault.Strategy — how much of a pool is deployed into its yield strategy
(`vault/vault-strategy.service.ts`, `packages/shared/src/constants.ts`).

A plan invests what is liquid above the buffer, as far as the cap goes, or refills the
buffer once it is below its floor. Either way it stops where neither is called for, so
a second plan has nothing to do. The floor is no higher than the buffer, and dust is
not invested; the amounts are `bigint`s of any sign.
-/
import Mathlib.Order.Basic

namespace Scadium.Vault.Strategy

inductive VaultStrategy where
  | none | jito_stake | kamino_lend
  deriving DecidableEq

/-- `VAULT.STRATEGY`, as far as a plan reads it. -/
structure Tuning where
  BUFFER_BPS : Nat
  BUFFER_FLOOR_BPS : Nat
  MAX_INVESTED_BPS : Nat
  MIN_INVEST_BASE : Nat
  floor_le : BUFFER_FLOOR_BPS ≤ BUFFER_BPS
  min_pos : 0 < MIN_INVEST_BASE

def VAULT.STRATEGY : Tuning where
  BUFFER_BPS := 1500
  BUFFER_FLOOR_BPS := 1000
  MAX_INVESTED_BPS := 8500
  MIN_INVEST_BASE := 1000000000
  floor_le := by decide
  min_pos := by decide

structure Snapshot where
  strategy : VaultStrategy
  totalAssets : Int
  liquid : Int
  invested : Int
  deriving DecidableEq

inductive Plan where
  | none
  | invest (amount : Int)
  | divest (amount : Int)
  deriving DecidableEq

/-! ## The plan -/

/-- `(totalAssets * BigInt(bps)) / 10_000n` -/
def shareOf (totalAssets : Int) (bps : Nat) : Int := (totalAssets * bps).tdiv 10000

def bufferTargetAssets (totalAssets : Int) (bufferBps : Nat) : Int :=
  if totalAssets ≤ 0 then 0 else shareOf totalAssets bufferBps

def investableExcess (s : Snapshot) (bufferBps maxInvestedBps : Nat) : Int :=
  if s.totalAssets ≤ 0 ∨ s.liquid ≤ 0 then 0
  else
    let target := bufferTargetAssets s.totalAssets bufferBps
    let aboveBuffer := if target < s.liquid then s.liquid - target else 0
    let investCap := shareOf s.totalAssets maxInvestedBps
    let capRoom := if investCap ≤ s.invested then 0 else investCap - s.invested
    if aboveBuffer < capRoom then aboveBuffer else capRoom

def divestForBufferFloor (s : Snapshot) (bufferBps floorBps : Nat) : Int :=
  if s.totalAssets ≤ 0 ∨ s.invested ≤ 0 then 0
  else if bufferTargetAssets s.totalAssets floorBps ≤ s.liquid then 0
  else
    let need := bufferTargetAssets s.totalAssets bufferBps - s.liquid
    if need < s.invested then need else s.invested

def planRebalance (c : Tuning) (s : Snapshot) : Plan :=
  if s.strategy = .none ∨ s.totalAssets ≤ 0 then .none
  else
    let toInvest := investableExcess s c.BUFFER_BPS c.MAX_INVESTED_BPS
    if c.MIN_INVEST_BASE ≤ toInvest then .invest toInvest
    else
      let toDivest := divestForBufferFloor s c.BUFFER_BPS c.BUFFER_FLOOR_BPS
      if 0 < toDivest then .divest toDivest else .none

/-- The pool after the plan: what is invested leaves the liquid assets, and what is
divested comes back. -/
def Snapshot.apply (s : Snapshot) : Plan → Snapshot
  | .none => s
  | .invest amount => { s with liquid := s.liquid - amount, invested := s.invested + amount }
  | .divest amount => { s with liquid := s.liquid + amount, invested := s.invested - amount }

/-! ## What it does -/

section

variable {c : Tuning} {s : Snapshot} {amount : Int}

theorem shareOf_mono {totalAssets : Int} (h : 0 < totalAssets) {a b : Nat} (hle : a ≤ b) :
    shareOf totalAssets a ≤ shareOf totalAssets b := by
  have hprod : totalAssets * a ≤ totalAssets * b :=
    Int.mul_le_mul_of_nonneg_left (by omega) (by omega)
  have hnonneg : ∀ n : Nat, 0 ≤ totalAssets * n := fun n => Int.mul_nonneg (by omega) (by omega)
  rw [shareOf, shareOf, Int.tdiv_eq_ediv_of_nonneg (hnonneg a),
    Int.tdiv_eq_ediv_of_nonneg (hnonneg b)]
  exact Int.ediv_le_ediv (by decide) hprod

/-- Everything an investment has checked. -/
theorem planRebalance_invest (h : planRebalance c s = .invest amount) :
    0 < s.totalAssets ∧ 0 < amount ∧
      amount = investableExcess s c.BUFFER_BPS c.MAX_INVESTED_BPS := by
  have hmin := c.min_pos
  unfold planRebalance at h
  split at h
  · cases h
  · rename_i hlive
    dsimp only at h
    split at h
    · cases h
      refine ⟨by omega, by omega, rfl⟩
    · split at h
      · cases h
      · cases h

/-- Everything a refill has checked. -/
theorem planRebalance_divest (h : planRebalance c s = .divest amount) :
    0 < s.totalAssets ∧ 0 < amount ∧
      amount = divestForBufferFloor s c.BUFFER_BPS c.BUFFER_FLOOR_BPS := by
  unfold planRebalance at h
  split at h
  · cases h
  · rename_i hlive
    dsimp only at h
    split at h
    · cases h
    · split at h
      · cases h
        refine ⟨by omega, by omega, rfl⟩
      · cases h

/-- A plan has nothing to do when nothing is to be invested and nothing divested. -/
theorem planRebalance_none
    (hinvest : investableExcess s c.BUFFER_BPS c.MAX_INVESTED_BPS ≤ 0)
    (hdivest : divestForBufferFloor s c.BUFFER_BPS c.BUFFER_FLOOR_BPS ≤ 0) :
    planRebalance c s = .none := by
  have hmin := c.min_pos
  unfold planRebalance
  split
  · rfl
  · dsimp only
    rw [if_neg (by omega), if_neg (by omega)]

/-- An investment is what is above the buffer, or all that the cap has room for. -/
theorem invest_spec {bufferBps maxInvestedBps : Nat}
    (hpos : 0 < investableExcess s bufferBps maxInvestedBps) :
    let x := investableExcess s bufferBps maxInvestedBps
    x ≤ s.liquid - bufferTargetAssets s.totalAssets bufferBps ∧
      x ≤ shareOf s.totalAssets maxInvestedBps - s.invested ∧
      (x = s.liquid - bufferTargetAssets s.totalAssets bufferBps ∨
        x = shareOf s.totalAssets maxInvestedBps - s.invested) := by
  unfold investableExcess at *
  dsimp only at *
  generalize bufferTargetAssets s.totalAssets bufferBps = target at *
  generalize shareOf s.totalAssets maxInvestedBps = investCap at *
  split_ifs at * <;> omega

/-- Nothing is invested without liquid assets above the buffer, or room below the cap. -/
theorem investableExcess_eq_zero {bufferBps maxInvestedBps : Nat}
    (h : s.liquid ≤ bufferTargetAssets s.totalAssets bufferBps ∨
      shareOf s.totalAssets maxInvestedBps ≤ s.invested) :
    investableExcess s bufferBps maxInvestedBps ≤ 0 := by
  unfold investableExcess
  dsimp only
  generalize bufferTargetAssets s.totalAssets bufferBps = target at *
  generalize shareOf s.totalAssets maxInvestedBps = investCap at *
  split_ifs <;> omega

/-- A refill goes up to the buffer, or takes all that is invested. -/
theorem divest_spec {bufferBps floorBps : Nat}
    (hpos : 0 < divestForBufferFloor s bufferBps floorBps) :
    let y := divestForBufferFloor s bufferBps floorBps
    y ≤ s.invested ∧ s.liquid + y ≤ bufferTargetAssets s.totalAssets bufferBps ∧
      (s.liquid + y = bufferTargetAssets s.totalAssets bufferBps ∨ y = s.invested) := by
  unfold divestForBufferFloor at *
  dsimp only at *
  generalize bufferTargetAssets s.totalAssets bufferBps = target at *
  generalize bufferTargetAssets s.totalAssets floorBps = floor at *
  split_ifs at * <;> omega

/-- Nothing is divested above the floor, or with nothing invested. -/
theorem divestForBufferFloor_eq_zero {bufferBps floorBps : Nat}
    (h : bufferTargetAssets s.totalAssets floorBps ≤ s.liquid ∨ s.invested ≤ 0) :
    divestForBufferFloor s bufferBps floorBps ≤ 0 := by
  unfold divestForBufferFloor
  dsimp only
  generalize bufferTargetAssets s.totalAssets bufferBps = target at *
  generalize bufferTargetAssets s.totalAssets floorBps = floor at *
  split_ifs <;> omega

theorem floor_le_target (c : Tuning) {totalAssets : Int} (h : 0 < totalAssets) :
    bufferTargetAssets totalAssets c.BUFFER_FLOOR_BPS ≤
      bufferTargetAssets totalAssets c.BUFFER_BPS := by
  rw [bufferTargetAssets, if_neg (by omega), bufferTargetAssets, if_neg (by omega)]
  exact shareOf_mono h c.floor_le

theorem settles_after_invest (h : planRebalance c s = .invest amount) :
    planRebalance c (s.apply (.invest amount)) = .none := by
  obtain ⟨hassets, hpos, rfl⟩ := planRebalance_invest h
  obtain ⟨_, _, _⟩ := invest_spec hpos
  have hfloor := floor_le_target c hassets
  refine planRebalance_none (investableExcess_eq_zero ?_) (divestForBufferFloor_eq_zero (.inl ?_))
  · simp only [Snapshot.apply]
    omega
  · simp only [Snapshot.apply]
    omega

theorem settles_after_divest (h : planRebalance c s = .divest amount) :
    planRebalance c (s.apply (.divest amount)) = .none := by
  obtain ⟨hassets, hpos, rfl⟩ := planRebalance_divest h
  obtain ⟨_, htarget, _⟩ := divest_spec hpos
  have hfloor := floor_le_target c hassets
  refine planRebalance_none (investableExcess_eq_zero (.inl ?_)) (divestForBufferFloor_eq_zero ?_)
  · simp only [Snapshot.apply]
    exact htarget
  · simp only [Snapshot.apply]
    omega

end

/-- An investment leaves the buffer liquid and stays within the cap, a refill takes no
more than is invested, and the plan after a plan is to do nothing. -/
theorem planRebalance_settles (c : Tuning) (s : Snapshot) :
    (∀ amount, planRebalance c s = .invest amount →
      bufferTargetAssets s.totalAssets c.BUFFER_BPS ≤ (s.apply (.invest amount)).liquid ∧
        (s.apply (.invest amount)).invested ≤ shareOf s.totalAssets c.MAX_INVESTED_BPS) ∧
    (∀ amount, planRebalance c s = .divest amount → amount ≤ s.invested) ∧
    planRebalance c (s.apply (planRebalance c s)) = .none := by
  refine ⟨?_, ?_, ?_⟩
  · intro amount h
    obtain ⟨-, hpos, rfl⟩ := planRebalance_invest h
    obtain ⟨_, _, -⟩ := invest_spec hpos
    simp only [Snapshot.apply]
    omega
  · intro amount h
    obtain ⟨-, hpos, rfl⟩ := planRebalance_divest h
    exact (divest_spec hpos).1
  · cases hplan : planRebalance c s with
    | none => exact hplan
    | invest => exact settles_after_invest hplan
    | divest => exact settles_after_divest hplan

def allLiquid : Snapshot := ⟨.jito_stake, 100000000000, 100000000000, 0⟩

def lowBuffer : Snapshot := ⟨.jito_stake, 100000000000, 5000000000, 95000000000⟩

theorem planRebalance_settles_sample :
    15000000000 ≤ (allLiquid.apply (.invest 85000000000)).liquid ∧
    planRebalance VAULT.STRATEGY lowBuffer = .divest 10000000000 ∧
    10000000000 ≤ lowBuffer.invested ∧
    planRebalance VAULT.STRATEGY (lowBuffer.apply (planRebalance VAULT.STRATEGY lowBuffer)) =
      .none := by
  obtain ⟨hinvest, -, -⟩ := planRebalance_settles VAULT.STRATEGY allLiquid
  obtain ⟨-, hdivest, hsettles⟩ := planRebalance_settles VAULT.STRATEGY lowBuffer
  have hplan : planRebalance VAULT.STRATEGY lowBuffer = .divest 10000000000 := by decide
  exact ⟨(hinvest 85000000000 (by decide)).1, hplan, hdivest 10000000000 hplan, hsettles⟩

end Scadium.Vault.Strategy
