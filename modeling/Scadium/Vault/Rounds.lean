/-
Scadium.Vault.Rounds — a round of the accrual credits the pools once.

The transaction looks at the round it settles before it credits anything, and
marks it in the same step; so whatever runs there are, and wherever they are
killed, at most one of them credits the pools for a period, and it credits
each pool at most once.
-/
import Scadium.Vault.Solvency

namespace Scadium.Vault

open Scadium.Lib Scadium.Prisma

variable {s s' : VaultSystem} {act : Act} {q : Period}

/-- The step credits pools for the period. -/
def Accrues (q : Period) (s : VaultSystem) (act : Act) (s' : VaultSystem) : Prop :=
  ∃ run ngr pools, act = .settle run ∧ s.runs.get run = some (.planned q ngr pools) ∧
    s'.vault.pools ≠ s.vault.pools

/-- Each pool is as it was, or has one credit of the run. -/
def CreditedOnce (s : VaultDb) (ngr : Int) (pools : List (PoolId × VaultPool)) (s' : VaultDb) :
    Prop :=
  ∀ id p, s.pools.get id = some p → ∃ p', s'.pools.get id = some p' ∧
    (p' = p ∨ ∃ c ∈ credits ngr pools, c.poolId = id ∧ p' = p.credit c)

theorem CreditedOnce.refl (s : VaultDb) (ngr : Int) (pools : List (PoolId × VaultPool)) :
    CreditedOnce s ngr pools s :=
  fun _ p hp => ⟨p, hp, .inl rfl⟩

/-- Settled periods stay settled. -/
def RoundsKept (s s' : VaultDb) : Prop :=
  ∀ q, (s.round q).distributed = true → (s'.round q).distributed = true

theorem RoundsKept.of_eq {s s' : VaultDb} (h : s'.rounds = s.rounds) : RoundsKept s s' := by
  intro q hq
  rw [VaultDb.round, h]
  exact hq

section Settle

variable {s s' : VaultDb} {period : Period} {ngr : Int} {pools : List (PoolId × VaultPool)}

theorem round_set {round : VaultAccrualRound} (hround : round.distributed = true)
    (h : s'.rounds = s.rounds.set period round) :
    RoundsKept s s' ∧ (s'.round period).distributed = true := by
  refine ⟨?_, ?_⟩
  · intro q hq
    rw [VaultDb.round, h, Table.get_set]
    by_cases hperiod : q = period
    · simp [hperiod, hround]
    · rw [if_neg hperiod]
      exact hq
  · simp [VaultDb.round, h, hround]

theorem settleRound_once (hnodup : (pools.map Prod.fst).Nodup)
    (hopen : (s.round period).distributed = false)
    (h : settleRound s period ngr pools = .ok s') :
    RoundsKept s s' ∧ (s'.round period).distributed = true ∧ CreditedOnce s ngr pools s' := by
  unfold settleRound at h
  rw [if_neg (by simp [hopen]), Committed.bind_ok] at h
  obtain ⟨_, hcredit, hs'⟩ := h
  cases hs'
  obtain ⟨hcredited, hother⟩ := creditPools_ok hcredit (credits_poolIds hnodup)
  refine ⟨?_, ?_, ?_⟩
  · exact (round_set (by rfl) rfl).1
  · exact (round_set (by rfl) rfl).2
  intro id p hp
  by_cases hid : id ∈ (credits ngr pools).map Credit.poolId
  · obtain ⟨c, hc, rfl⟩ := List.mem_map.mp hid
    obtain ⟨p', hp', hnew⟩ := hcredited c hc
    have heq : p' = p := Option.some.inj (hp'.symm.trans hp)
    subst heq
    exact ⟨_, hnew, .inr ⟨c, hc, rfl, rfl⟩⟩
  · exact ⟨p, (hother id hid).trans hp, .inl rfl⟩

/-- The last step of a run: the pools stay, or the period was open, is
settled, and each pool is credited at most once. -/
theorem settle_once (hnodup : (pools.map Prod.fst).Nodup) :
    RoundsKept s (dbAfter s (settle s period ngr pools)) ∧
      CreditedOnce s ngr pools (dbAfter s (settle s period ngr pools)) ∧
      ((dbAfter s (settle s period ngr pools)).pools ≠ s.pools →
        (s.round period).distributed = false ∧
          ((dbAfter s (settle s period ngr pools)).round period).distributed = true) := by
  unfold settle
  cases hyield : noYield ngr pools with
  | true =>
    exact ⟨(round_set rfl rfl).1, .refl s ngr pools, fun hne => absurd rfl hne⟩
  | false =>
    rw [if_neg (by simp)]
    cases hround : (s.round period).distributed with
    | true =>
      have hdone : settleRound s period ngr pools = .ok s := by simp [settleRound, hround]
      rw [hdone]
      exact ⟨fun _ h => h, .refl s ngr pools, fun hne => absurd rfl hne⟩
    | false =>
      cases hsettled : settleRound s period ngr pools with
      | error => exact ⟨fun _ h => h, .refl s ngr pools, fun hne => absurd rfl hne⟩
      | ok =>
        obtain ⟨hkept, hset, honce⟩ := settleRound_once hnodup hround hsettled
        exact ⟨hkept, honce, fun _ => ⟨rfl, hset⟩⟩

end Settle

/-- What a run has read of the pools has each pool once. -/
def Planned (s : VaultSystem) : Prop :=
  ∀ r period ngr pools, s.runs.get r = some (.planned period ngr pools) →
    (pools.map Prod.fst).Nodup

theorem planned_initial (db : Db) (pools : Table PoolId VaultPool) :
    Planned (.initial db pools) := by
  intro r period ngr pools hr
  cases hr

theorem rounds_step (hp : Planned s) (h : step s act = some s') :
    RoundsKept s.vault s'.vault := by
  cases act with
  | deposit =>
    simp only [step] at h
    split at h
    case h_1 r hr =>
      cases h
      obtain ⟨pool, hd⟩ := deposit_ok hr
      exact .of_eq hd.rounds
    case h_2 => cases h
  | withdraw =>
    simp only [step] at h
    split at h
    case h_1 r hr =>
      cases h
      obtain ⟨_, _, hw, -⟩ := withdraw_ok hr
      exact .of_eq hw.rounds
    case h_2 => cases h
  | settle run =>
    simp only [step] at h
    split at h
    case h_1 period ngr pools hrun =>
      cases h
      exact (settle_once (hp run period ngr pools hrun)).1
    case h_2 => cases h
  | accrue | aggregate | findPools =>
    simp only [step] at h
    split at h <;> cases h
    exact .of_eq rfl
  | findRound =>
    simp only [step] at h
    split at h
    · split at h <;> cases h <;> exact .of_eq rfl
    · cases h
  | kill =>
    cases h
    exact .of_eq rfl

/-- A run credits the pools only while the period is open, and closes it. -/
theorem accrues_guarded (hp : Planned s) (h : step s act = some s') (ha : Accrues q s act s') :
    (s.vault.round q).distributed = false ∧ (s'.vault.round q).distributed = true := by
  obtain ⟨run, ngr, pools, rfl, hrun, hne⟩ := ha
  simp only [step, hrun, Option.some.injEq] at h
  subst h
  exact (settle_once (hp run q ngr pools hrun)).2.2 hne

/-- The step that settles a run. -/
theorem settles_once (hp : Planned s) {run : RunId} {period : Period} {ngr : Int}
    {pools : List (PoolId × VaultPool)}
    (hrun : s.runs.get run = some (.planned period ngr pools))
    (h : step s (.settle run) = some s') : CreditedOnce s.vault ngr pools s'.vault := by
  simp only [step, hrun, Option.some.injEq] at h
  subst h
  exact (settle_once (hp run period ngr pools hrun)).2.1

end Scadium.Vault
