/-
Scadium.Vault.Solvency — the off-chain vault under every interleaving of
deposits, withdrawals and accrual runs.

An accrual writes an index computed from the pools as it read them. It is
`Current` for a pool when the pool still has the index that was read and no
more shares than were read, or has no shares and no higher index. While all
credits are current, every pool stays solvent and its index does not
decrease, except when its last shares leave; a credit that is not current
can undo a raise or leave the pool unable to pay, and two runs show it.
-/
import Scadium.Lib.ShareIndex
import Scadium.Vault.Service

namespace Scadium.Vault

open Scadium.Lib Scadium.Lib.ShareIndex Scadium.Prisma Scadium.Prisma.Committed Scadium.Shared

/-! ## The properties -/

/-- The shares are worth no more than the assets. -/
def VaultPool.Solvent (p : VaultPool) : Prop :=
  (p.totalShares * p.indexRay : Int) ≤ p.totalAssets * VAULT.RAY

/-- No pool's index decreased, but for one whose last shares left. -/
def IndexKept (s s' : VaultSystem) : Prop :=
  ∀ id p, s.vault.pools.get id = some p → ∃ p', s'.vault.pools.get id = some p' ∧
    (p.indexRay ≤ p'.indexRay ∨
      0 < p.totalShares ∧ p'.totalShares = 0 ∧ p'.indexRay = VAULT.INITIAL_INDEX_RAY)

/-- The row that was read still tells where the index of the pool is. -/
def Current (p seen : VaultPool) : Prop :=
  p.indexRay ≤ seen.indexRay ∧
    (p.totalShares = 0 ∨ p.indexRay = seen.indexRay ∧ p.totalShares ≤ seen.totalShares)

instance (p seen : VaultPool) : Decidable (Current p seen) := by
  unfold Current
  infer_instance

/-- The credits that the transaction of a run is about to write. -/
def VaultSystem.creditsDue (s : VaultSystem) (run : RunId) : List Credit :=
  match s.runs.get run with
  | some (.planned period ngr pools) =>
      if noYield ngr pools || (s.vault.round period).distributed then [] else credits ngr pools
  | _ => []

/-- When an accrual settles, each credit is current for its pool. -/
def Fresh (s : VaultSystem) : Act → Prop
  | .settle run => ∀ c ∈ s.creditsDue run, ∀ p, s.vault.pools.get c.poolId = some p →
      Current p c.seen
  | _ => True

/-- Freshness, computed. -/
theorem fresh_settle {s : VaultSystem} {run : RunId} (h : ((s.creditsDue run).all fun c =>
    (s.vault.pools.get c.poolId).all fun p => decide (Current p c.seen)) = true) :
    Fresh s (.settle run) := by
  intro c hc p hp
  have hall := List.all_eq_true.mp h c hc
  rw [hp] at hall
  exact of_decide_eq_true hall

/-! ## One pool -/

/-- The assets, which are then not negative, cover all shares. -/
def VaultPool.Backed (p : VaultPool) : Prop :=
  ∃ n : Nat, p.totalAssets = n ∧ Covers VAULT.RAY n 0 p.totalShares p.indexRay

theorem VaultPool.Backed.solvent {p : VaultPool} (h : p.Backed) : p.Solvent := by
  obtain ⟨n, hn, hcovers⟩ := h
  unfold Covers at hcovers
  unfold VaultPool.Solvent
  rw [hn]
  exact_mod_cast (by omega : p.totalShares * p.indexRay ≤ n * VAULT.RAY)

theorem VaultPool.Genesis.backed {p : VaultPool} (h : p.Genesis) : p.Backed := by
  obtain ⟨hassets, hshares, -⟩ := h
  refine ⟨0, hassets, ?_⟩
  rw [hshares]
  exact covers_zero _ _

section Exit

variable {p : VaultPool} {burned net penalty : Nat}

theorem VaultPool.Backed.exit (h : p.Backed) (hle : burned ≤ p.totalShares)
    (hworth : net + penalty = burned * p.indexRay / VAULT.RAY) :
    (p.exit burned net penalty).Backed := by
  obtain ⟨n, _, hcovers⟩ := h
  unfold VaultPool.exit
  simp only
  split
  case isTrue => exact ⟨0, rfl, covers_zero _ _⟩
  case isFalse hleft =>
    have hvalue := hcovers.worth_le hle
    have hfloor : (net + penalty) * VAULT.RAY ≤ burned * p.indexRay :=
      hworth ▸ Nat.div_mul_le_self _ _
    refine ⟨n - net, ?_, ?_⟩
    · show p.totalAssets - (net : Int) = _
      omega
    · show Covers _ _ 0 (p.totalShares - burned) (applyAccrual _ _ _)
      rw [applyAccrual_eq]
      exact hcovers.exit hle hfloor (Nat.le_refl _)

theorem VaultPool.exit_indexRay (p : VaultPool) (burned net penalty : Nat) :
    p.indexRay ≤ (p.exit burned net penalty).indexRay ∨
      (p.exit burned net penalty).totalShares = 0 ∧
        (p.exit burned net penalty).indexRay = VAULT.INITIAL_INDEX_RAY := by
  unfold VaultPool.exit
  simp only
  split
  case isTrue => exact .inr ⟨rfl, rfl⟩
  case isFalse =>
    left
    rw [applyAccrual_eq]
    exact Nat.le_add_right _ _

theorem VaultPool.exit_totalShares (p : VaultPool) (burned net penalty : Nat) :
    (p.exit burned net penalty).totalShares = p.totalShares - burned := by
  unfold VaultPool.exit
  simp only
  split
  case isTrue hzero => exact hzero.symm
  case isFalse => rfl

end Exit

section Credit

variable {p : VaultPool} {c : Credit}

theorem Credit.newIndex_eq (c : Credit) :
    c.newIndex = c.seen.indexRay + c.poolYield * VAULT.RAY / c.seen.totalShares :=
  applyAccrual_eq _ _ _

/-- A current credit raises the index of a pool with shares by no more than
what the yield is good for. -/
theorem VaultPool.Backed.credit (h : p.Backed) (hc : Current p c.seen) : (p.credit c).Backed := by
  obtain ⟨n, _, hcovers⟩ := h
  refine ⟨n + c.poolYield, ?_, ?_⟩
  · show p.totalAssets + (c.poolYield : Int) = _
    omega
  · show Covers _ _ 0 p.totalShares c.newIndex
    rw [c.newIndex_eq]
    rcases hc.2 with hzero | ⟨hindex, hshares⟩
    · rw [hzero]
      unfold Covers
      omega
    · rw [← hindex]
      exact hcovers.raise hshares c.poolYield

theorem Current.indexRay_le (hc : Current p c.seen) : p.indexRay ≤ (p.credit c).indexRay := by
  show p.indexRay ≤ c.newIndex
  rw [c.newIndex_eq]
  exact hc.1.trans (Nat.le_add_right _ _)

end Credit

/-! ## The credits of a round -/

theorem creditPools_ok {cs : List Credit} {pools pools' : Table PoolId VaultPool}
    (h : creditPools pools cs = .ok pools') (hnodup : (cs.map Credit.poolId).Nodup) :
    (∀ c ∈ cs, ∃ p, pools.get c.poolId = some p ∧ pools'.get c.poolId = some (p.credit c)) ∧
      ∀ id, id ∉ cs.map Credit.poolId → pools'.get id = pools.get id := by
  induction cs generalizing pools with
  | nil =>
    cases h
    exact ⟨by simp, fun _ _ => rfl⟩
  | cons c cs ih =>
    simp only [creditPools, bind_ok, orThrow_ok] at h
    obtain ⟨p, hp, hrest⟩ := h
    obtain ⟨hc, hnodup⟩ := List.nodup_cons.mp hnodup
    obtain ⟨hcredited, hother⟩ := ih hrest hnodup
    refine ⟨?_, ?_⟩
    · intro d hd
      rcases List.mem_cons.mp hd with rfl | hd
      · refine ⟨p, hp, ?_⟩
        rw [hother _ hc, Table.get_set_self]
      · obtain ⟨q, hq, hq'⟩ := hcredited d hd
        have hne : d.poolId ≠ c.poolId := by
          intro heq
          exact hc (heq ▸ List.mem_map_of_mem hd)
        rw [Table.get_set_ne _ hne] at hq
        exact ⟨q, hq, hq'⟩
    · intro id hid
      simp only [List.map_cons, List.mem_cons, not_or] at hid
      rw [hother id hid.2, Table.get_set_ne _ hid.1]

theorem credits_poolIds {ngr : Int} {pools : List (PoolId × VaultPool)}
    (h : (pools.map Prod.fst).Nodup) : ((credits ngr pools).map Credit.poolId).Nodup := by
  unfold credits
  refine List.Nodup.sublist (List.filter_sublist.map _) ?_
  rw [List.map_map]
  exact h

theorem eligible_nodup (pools : Table PoolId VaultPool) :
    ((eligible pools).map Prod.fst).Nodup :=
  pools.nodup.sublist (List.filter_sublist.map _)

/-! ## The invariant -/

/-- The shares of the positions in a pool. -/
def VaultDb.sharesIn (s : VaultDb) (id : PoolId) : Nat :=
  s.positions.sum fun q => if q.poolId = id then q.shares else 0

/-- Whatever the accruals write, the positions add up to the pools' shares. -/
structure Tally (s : VaultSystem) : Prop where
  shares : ∀ id p, s.vault.pools.get id = some p → s.vault.sharesIn id = p.totalShares
  inPool : ∀ k q, s.vault.positions.get k = some q → ∃ p, s.vault.pools.get q.poolId = some p
  planned : ∀ r period ngr pools, s.runs.get r = some (.planned period ngr pools) →
    (pools.map Prod.fst).Nodup

structure Inv (s : VaultSystem) : Prop extends Tally s where
  backed : ∀ id p, s.vault.pools.get id = some p → p.Backed

theorem inv_initial (db : Db) {pools : Table PoolId VaultPool}
    (hpools : ∀ id p, pools.get id = some p → p.Genesis) : Inv (.initial db pools) where
  backed id p hp := (hpools id p hp).backed
  shares id p hp := (hpools id p hp).2.1.symm
  inPool k q hq := by cases hq
  planned r period ngr pools hr := by cases hr

/-- A pool before and after a step. -/
def Kept (p p' : VaultPool) : Prop :=
  p'.Backed ∧ (p.indexRay ≤ p'.indexRay ∨
    0 < p.totalShares ∧ p'.totalShares = 0 ∧ p'.indexRay = VAULT.INITIAL_INDEX_RAY)

theorem VaultPool.Backed.kept {p : VaultPool} (h : p.Backed) : Kept p p :=
  ⟨h, .inl (Nat.le_refl _)⟩

/-- The pools and positions after a step, one pool at a time; `ok` is what
keeps a pool backed. -/
structure Moved (ok : Prop) (s s' : VaultDb) : Prop where
  pool : ∀ id p, s.pools.get id = some p → s.sharesIn id = p.totalShares →
    ∃ p', s'.pools.get id = some p' ∧ s'.sharesIn id = p'.totalShares ∧
      (ok → p.Backed → Kept p p')
  noOther : ∀ id, s.pools.get id = none → s'.pools.get id = none
  inPool : ∀ k q, s'.positions.get k = some q →
    (∃ q', s.positions.get k = some q' ∧ q'.poolId = q.poolId) ∨
      ∃ p, s.pools.get q.poolId = some p

variable {ok : Prop}

/-- A change that leaves pools and positions alone. -/
theorem Moved.of_eq {s s' : VaultDb} (hpools : s'.pools = s.pools)
    (hpositions : s'.positions = s.positions) : Moved ok s s' where
  pool id p hp hs := by
    unfold VaultDb.sharesIn at *
    rw [hpools, hpositions]
    exact ⟨p, hp, hs, fun _ hb => hb.kept⟩
  noOther id hnone := by rw [hpools, hnone]
  inPool k q hq := by
    rw [hpositions] at hq
    exact .inl ⟨q, hq, rfl⟩

theorem Moved.refl (s : VaultDb) : Moved ok s s := .of_eq rfl rfl

section Deposit

variable {s s' : VaultDb} {userId : UserId} {poolId : PoolId} {amount : Nat} {pool : VaultPool}
  {positionId : PositionId} {maturesAt : Time}

theorem Deposited.sharesIn (h : Deposited s s' userId poolId amount pool positionId maturesAt)
    (id : PoolId) : s'.sharesIn id =
      s.sharesIn id + if poolId = id then amount * VAULT.RAY / pool.indexRay else 0 := by
  have hset := s.positions.sum_set (k := positionId)
    (a := ⟨userId, poolId, amount * VAULT.RAY / pool.indexRay, amount, maturesAt⟩)
    (g := fun q => if q.poolId = id then q.shares else 0)
  rw [h.fresh] at hset
  unfold VaultDb.sharesIn
  rw [h.positions]
  exact hset

theorem Deposited.moved (h : Deposited s s' userId poolId amount pool positionId maturesAt) :
    Moved ok s s' where
  pool id p hp hs := by
    rw [h.pools, h.sharesIn]
    by_cases hid : id = poolId
    · subst hid
      have heq : pool = p := Option.some.inj (h.found.symm.trans hp)
      subst heq
      rw [Table.get_set_self]
      refine ⟨_, rfl, ?_, ?_⟩
      · rw [if_pos rfl, hs]
      · rintro - ⟨n, _, hcovers⟩
        refine ⟨⟨n + amount, ?_, hcovers.deposit amount⟩, .inl (Nat.le_refl _)⟩
        show pool.totalAssets + (amount : Int) = _
        omega
    · rw [Table.get_set_ne _ hid, if_neg (Ne.symm hid)]
      exact ⟨p, hp, hs, fun _ hb => hb.kept⟩
  noOther id hnone := by
    have hne : id ≠ poolId := by
      rintro rfl
      rw [h.found] at hnone
      cases hnone
    rw [h.pools, Table.get_set_ne _ hne, hnone]
  inPool k q hq := by
    rw [h.positions] at hq
    by_cases hk : k = positionId
    · subst hk
      rw [Table.get_set_self] at hq
      cases hq
      exact .inr ⟨pool, h.found⟩
    · rw [Table.get_set_ne _ hk] at hq
      exact .inl ⟨q, hq, rfl⟩

end Deposit

section Withdraw

variable {s s' : VaultDb} {positionId : PositionId} {position : VaultPosition} {pool : VaultPool}
  {r : WithdrawResult}

theorem sum_exitPosition {positions : Table PositionId VaultPosition} {burned : Nat}
    (hp : positions.get positionId = some position) (hle : burned ≤ position.shares)
    (portion : Nat) (id : PoolId) :
    (exitPosition positions positionId position burned portion).sum
        (fun q => if q.poolId = id then q.shares else 0) +
      (if position.poolId = id then burned else 0) =
        positions.sum (fun q => if q.poolId = id then q.shares else 0) := by
  unfold exitPosition
  split
  case isTrue hall =>
    have herase := positions.sum_erase (g := fun q => if q.poolId = id then q.shares else 0) hp
    have heq : burned = position.shares := by omega
    rw [heq]
    exact herase
  case isFalse =>
    have hset := positions.sum_set (k := positionId)
      (a := { position with
        shares := position.shares - burned, principal := position.principal - portion })
      (g := fun q => if q.poolId = id then q.shares else 0)
    rw [hp] at hset
    simp only [Option.map_some, Option.getD_some] at hset
    by_cases hid : position.poolId = id
    · simp only [hid, if_true] at hset ⊢
      omega
    · simp only [hid, if_false] at hset ⊢
      omega

theorem Withdrawn.worth (h : Withdrawn s s' positionId position pool r) :
    r.netAssets + r.penaltyAssets = r.sharesBurned * pool.indexRay / VAULT.RAY := by
  have hpenalty : r.penaltyAssets ≤ r.grossAssets := by
    rw [h.penalty]
    split
    · exact Nat.div_le_self _ _
    · exact Nat.zero_le _
  rw [h.net, ← h.gross]
  omega

/-- What a position burns is among the pool's shares. -/
theorem Withdrawn.burned_le_total (h : Withdrawn s s' positionId position pool r)
    (hs : s.sharesIn position.poolId = pool.totalShares) : r.sharesBurned ≤ pool.totalShares := by
  have hle := s.positions.le_sum
    (g := fun q => if q.poolId = position.poolId then q.shares else 0) h.found
  rw [if_pos rfl] at hle
  have hburned := h.burned_le
  have hsum : s.positions.sum (fun q => if q.poolId = position.poolId then q.shares else 0) =
      pool.totalShares := hs
  omega

theorem Withdrawn.moved (h : Withdrawn s s' positionId position pool r) : Moved ok s s' where
  pool id p hp hs := by
    have hsum := sum_exitPosition h.found h.burned_le (principalPortion position r.sharesBurned) id
    have hsum' : s'.sharesIn id + (if position.poolId = id then r.sharesBurned else 0) =
        s.sharesIn id := by
      unfold VaultDb.sharesIn
      rw [h.positions]
      exact hsum
    rw [h.pools]
    by_cases hid : id = position.poolId
    · subst hid
      have heq : pool = p := Option.some.inj (h.inPool.symm.trans hp)
      subst heq
      have hle := h.burned_le_total hs
      have hburned := h.burned_pos
      rw [if_pos rfl] at hsum'
      rw [Table.get_set_self]
      refine ⟨_, rfl, ?_, ?_⟩
      · rw [pool.exit_totalShares]
        omega
      · intro _ hb
        refine ⟨hb.exit hle h.worth, ?_⟩
        rcases pool.exit_indexRay r.sharesBurned r.netAssets r.penaltyAssets with hkept | hreset
        · exact .inl hkept
        · exact .inr ⟨by omega, hreset⟩
    · rw [if_neg (Ne.symm hid)] at hsum'
      rw [Table.get_set_ne _ hid]
      exact ⟨p, hp, by omega, fun _ hb => hb.kept⟩
  noOther id hnone := by
    have hne : id ≠ position.poolId := by
      rintro rfl
      rw [h.inPool] at hnone
      cases hnone
    rw [h.pools, Table.get_set_ne _ hne, hnone]
  inPool k q hq := by
    rw [h.positions] at hq
    left
    unfold exitPosition at hq
    by_cases hk : k = positionId
    · subst hk
      split at hq
      · rw [Table.get_erase_self] at hq
        cases hq
      · rw [Table.get_set_self] at hq
        cases hq
        exact ⟨position, h.found, rfl⟩
    · split at hq
      · rw [Table.get_erase_ne _ hk] at hq
        exact ⟨q, hq, rfl⟩
      · rw [Table.get_set_ne _ hk] at hq
        exact ⟨q, hq, rfl⟩

end Withdraw

section Settle

variable {s s' : VaultDb} {period : Period} {ngr : Int} {pools : List (PoolId × VaultPool)}

theorem settleRound_moved (hnodup : (pools.map Prod.fst).Nodup)
    (hopen : (s.round period).distributed = false)
    (hcurrent : ok → ∀ c ∈ credits ngr pools, ∀ p, s.pools.get c.poolId = some p →
      Current p c.seen)
    (h : settleRound s period ngr pools = .ok s') : Moved ok s s' := by
  unfold settleRound at h
  rw [if_neg (by simp [hopen]), bind_ok] at h
  obtain ⟨_, hcredit, hs'⟩ := h
  cases hs'
  obtain ⟨hcredited, hother⟩ := creditPools_ok hcredit (credits_poolIds hnodup)
  exact
    { pool := by
        intro id p hp hs
        by_cases hid : id ∈ (credits ngr pools).map Credit.poolId
        · obtain ⟨c, hc, rfl⟩ := List.mem_map.mp hid
          obtain ⟨q, hq, hq'⟩ := hcredited c hc
          have heq : q = p := Option.some.inj (hq.symm.trans hp)
          subst heq
          refine ⟨_, hq', hs, ?_⟩
          intro hok hb
          have hcur := hcurrent hok c hc q hp
          exact ⟨hb.credit hcur, .inl hcur.indexRay_le⟩
        · exact ⟨p, (hother id hid).trans hp, hs, fun _ hb => hb.kept⟩
      noOther := by
        intro id hnone
        by_cases hid : id ∈ (credits ngr pools).map Credit.poolId
        · obtain ⟨c, hc, rfl⟩ := List.mem_map.mp hid
          obtain ⟨q, hq, -⟩ := hcredited c hc
          rw [hnone] at hq
          cases hq
        · exact (hother id hid).trans hnone
      inPool := fun _ q hq => .inl ⟨q, hq, rfl⟩ }

/-- A run's last step; its credits being current keeps the pools backed. -/
theorem settle_moved (hnodup : (pools.map Prod.fst).Nodup)
    (hcurrent : noYield ngr pools = false → (s.round period).distributed = false → ok →
      ∀ c ∈ credits ngr pools, ∀ p, s.pools.get c.poolId = some p → Current p c.seen) :
    Moved ok s (dbAfter s (settle s period ngr pools)) := by
  unfold settle
  cases hyield : noYield ngr pools with
  | true => exact .of_eq rfl rfl
  | false =>
    rw [if_neg (by simp)]
    cases hround : (s.round period).distributed with
    | true =>
      have hdone : settleRound s period ngr pools = .ok s := by simp [settleRound, hround]
      rw [hdone]
      exact .refl s
    | false =>
      cases hsettled : settleRound s period ngr pools with
      | error => exact .refl s
      | ok => exact settleRound_moved hnodup hround (hcurrent hyield hround) hsettled

end Settle

/-! ## Runs -/

variable {s s' : VaultSystem} {act : Act}

theorem planned_of_set {runs : Table RunId AccrualRun} {k r : RunId} {run : AccrualRun}
    {period : Period} {ngr : Int} {pools : List (PoolId × VaultPool)}
    (h : (runs.set k run).get r = some (.planned period ngr pools)) :
    runs.get r = some (.planned period ngr pools) ∨ run = .planned period ngr pools := by
  rw [Table.get_set] at h
  split at h
  · exact .inr (Option.some.inj h)
  · exact .inl h

theorem planned_of_erase {runs : Table RunId AccrualRun} {k r : RunId} {period : Period}
    {ngr : Int} {pools : List (PoolId × VaultPool)}
    (h : (runs.erase k).get r = some (.planned period ngr pools)) :
    runs.get r = some (.planned period ngr pools) := by
  by_cases hr : r = k
  · subst hr
    rw [Table.get_erase_self] at h
    cases h
  · rwa [Table.get_erase_ne _ hr] at h

/-- A run that has read the pools had done so before the step, or reads them in
it. -/
theorem planned_before (h : step s act = some s') {r : RunId} {period : Period} {ngr : Int}
    {pools : List (PoolId × VaultPool)} (hr : s'.runs.get r = some (.planned period ngr pools)) :
    s.runs.get r = some (.planned period ngr pools) ∨
      pools = eligible s.vault.pools ∧ s'.vault = s.vault := by
  cases act with
  | deposit | withdraw =>
    simp only [step] at h
    split at h
    · cases h
      exact .inl hr
    · cases h
  | accrue | aggregate =>
    simp only [step] at h
    split at h
    · cases h
      exact .inl ((planned_of_set hr).resolve_right (by simp))
    · cases h
  | findRound =>
    simp only [step] at h
    split at h
    · split at h
      · cases h
        exact .inl (planned_of_erase hr)
      · cases h
        exact .inl ((planned_of_set hr).resolve_right (by simp))
    · cases h
  | findPools =>
    simp only [step] at h
    split at h
    · cases h
      obtain hold | hnew := planned_of_set hr
      · exact .inl hold
      · cases hnew
        exact .inr ⟨rfl, rfl⟩
    · cases h
  | settle =>
    simp only [step] at h
    split at h
    · cases h
      exact .inl (planned_of_erase hr)
    · cases h
  | kill =>
    cases h
    exact .inl (planned_of_erase hr)

theorem planned_step (hi : ∀ r period ngr pools, s.runs.get r = some (.planned period ngr pools) →
    (pools.map Prod.fst).Nodup) (h : step s act = some s') :
    ∀ r period ngr pools, s'.runs.get r = some (.planned period ngr pools) →
      (pools.map Prod.fst).Nodup := by
  intro r period ngr pools hr
  obtain hold | ⟨rfl, -⟩ := planned_before h hr
  · exact hi r period ngr pools hold
  · exact eligible_nodup _

/-- What an act does to the vault's tables. -/
inductive Effect (s s' : VaultSystem) : Act → Prop where
  | deposit {userId poolId amount now positionId pool maturesAt}
      (h : Deposited s.vault s'.vault userId poolId (Int.toNat amount) pool positionId maturesAt) :
      Effect s s' (.deposit userId poolId amount now positionId)
  | withdraw {userId positionId shares now r}
      (h : withdraw s.vault userId positionId shares now = .ok (s'.vault, r)) :
      Effect s s' (.withdraw userId positionId shares now)
  | settle {run period ngr pools} (hrun : s.runs.get run = some (.planned period ngr pools))
      (hvault : s'.vault = dbAfter s.vault (settle s.vault period ngr pools)) :
      Effect s s' (.settle run)
  | other {a : Act} (hvault : s'.vault = s.vault)
      (hwithdraw : ∀ userId positionId shares now, a ≠ .withdraw userId positionId shares now)
      (hsettle : ∀ run, a ≠ .settle run) : Effect s s' a

/-- Only deposits, withdrawals and settlements touch the database. -/
theorem effect (h : step s act = some s') : Effect s s' act := by
  cases act with
  | deposit =>
    simp only [step] at h
    split at h
    case h_1 r hr =>
      cases h
      obtain ⟨_, hd⟩ := deposit_ok hr
      exact .deposit hd
    case h_2 => cases h
  | withdraw =>
    simp only [step] at h
    split at h
    case h_1 r hr =>
      cases h
      exact .withdraw hr
    case h_2 => cases h
  | settle =>
    simp only [step] at h
    split at h
    case h_1 period ngr pools hrun =>
      cases h
      exact .settle hrun rfl
    case h_2 => cases h
  | accrue | aggregate | findPools =>
    simp only [step] at h
    split at h <;> cases h
    exact .other rfl (by simp) (by simp)
  | findRound =>
    simp only [step] at h
    split at h
    · split at h <;> cases h <;> exact .other rfl (by simp) (by simp)
    · cases h
  | kill =>
    cases h
    exact .other rfl (by simp) (by simp)

theorem moved_step (hi : Tally s) (h : step s act = some s') :
    Moved (Fresh s act) s.vault s'.vault := by
  cases effect h with
  | deposit hd => exact hd.moved
  | withdraw hw =>
    obtain ⟨_, _, hw, -⟩ := withdraw_ok hw
    exact hw.moved
  | settle hrun hvault =>
    rw [hvault]
    refine settle_moved (hi.planned _ _ _ _ hrun) ?_
    intro hyield hround hok c hc
    refine hok c ?_
    unfold VaultSystem.creditsDue
    simpa [hrun, hyield, hround] using hc
  | other hvault =>
    rw [hvault]
    exact .refl _

theorem tally_step (hi : Tally s) (h : step s act = some s') : Tally s' := by
  have hmoved := moved_step hi h
  exact
    { shares := by
        intro id p' hp'
        cases hp : s.vault.pools.get id with
        | none =>
          rw [hmoved.noOther id hp] at hp'
          cases hp'
        | some p =>
          obtain ⟨q, hq, hs, -⟩ := hmoved.pool id p hp (hi.shares id p hp)
          have heq : q = p' := Option.some.inj (hq.symm.trans hp')
          exact heq ▸ hs
      inPool := by
        intro k q hq
        have hold : ∃ p, s.vault.pools.get q.poolId = some p := by
          rcases hmoved.inPool k q hq with ⟨q', hq', heq⟩ | hp
          · exact heq ▸ hi.inPool k q' hq'
          · exact hp
        obtain ⟨p, hp⟩ := hold
        obtain ⟨p', hp', -⟩ := hmoved.pool _ p hp (hi.shares _ p hp)
        exact ⟨p', hp'⟩
      planned := planned_step hi.planned h }

theorem inv_step (hi : Inv s) (hok : Fresh s act) (h : step s act = some s') :
    Inv s' ∧ IndexKept s s' := by
  have hmoved := moved_step hi.toTally h
  refine ⟨⟨tally_step hi.toTally h, ?_⟩, ?_⟩
  · intro id p' hp'
    cases hp : s.vault.pools.get id with
    | none =>
      rw [hmoved.noOther id hp] at hp'
      cases hp'
    | some p =>
      obtain ⟨q, hq, -, hkept⟩ := hmoved.pool id p hp (hi.shares id p hp)
      have heq : q = p' := Option.some.inj (hq.symm.trans hp')
      exact heq ▸ (hkept hok (hi.backed id p hp)).1
  · intro id p hp
    obtain ⟨p', hp', -, hkept⟩ := hmoved.pool id p hp (hi.shares id p hp)
    exact ⟨p', hp', (hkept hok (hi.backed id p hp)).2⟩

/-- In every run whose accruals only write credits that are current, every
pool is solvent in every state reached, its shares being those of its
positions, and a step that goes on in this way keeps every index, but for
that of a pool whose last shares leave. -/
theorem solvent_while_current {db : Db} {pools : Table PoolId VaultPool} {es : List Act}
    (hpools : ∀ id p, pools.get id = some p → p.Genesis)
    (hok : Along step Fresh (.initial db pools) es)
    (hrun : run step (.initial db pools) es = some s) :
    (∀ id p, s.vault.pools.get id = some p →
        p.Solvent ∧ s.vault.sharesIn id = p.totalShares) ∧
      ∀ act s', Fresh s act → step s act = some s' → IndexKept s s' := by
  have hi : Inv s := run_induct (P := Inv) (fun _ _ _ hok hi h => (inv_step hi hok h).1)
    (inv_initial db hpools) hok hrun
  refine ⟨fun id p hp => ⟨(hi.backed id p hp).solvent, hi.shares id p hp⟩, ?_⟩
  intro act s' hfresh h
  exact (inv_step hi hfresh h).2

/-! ## Two runs with a credit that is not current -/

/-- Every user holds 20 SCAD. -/
def sampleDb : Db :=
  { Db.empty with
    users := fun _ => some
      { username := none, walletAddress := "", banned := false, fundedAt := none
        referredById := none, signupIpHash := none
        balance := fun c => if c = .scad then 20000000000 else 0
        totalWagered := 0, totalWon := 0, totalLost := 0, biggestWin := 0, gamesPlayed := 0 } }

/-- The pool with the term of 30 days. -/
def samplePools : Table PoolId VaultPool :=
  Table.empty.set 1 ⟨30, 0, 0, VAULT.INITIAL_INDEX_RAY, 1000, 0, true⟩

theorem samplePools_genesis (id : PoolId) (p : VaultPool) (hp : samplePools.get id = some p) :
    p.Genesis := by
  refine Table.forall_set (P := fun _ p => p.Genesis) _ ?_ ⟨rfl, rfl, rfl⟩ id p hp
  intro j b hb
  cases hb

/-- Accrual run 5 reads the pools before the acts in between. -/
def sampleRun (between : List Act) : List Act :=
  [.deposit 1 1 1000000000 0 101, .deposit 2 1 9000000000 0 102, .accrue 5 2025010100,
    .findRound 5, .aggregate 5 125000, .findPools 5] ++ between ++ [.settle 5]

/-- An early exit in between: its raise of the index is overwritten. And a
deposit in between: the pool owes more than it has. -/
theorem stale_credit_breaks_vault :
    (∃ s s' p p', run step (.initial sampleDb samplePools)
        (sampleRun [.withdraw 2 102 (some 9000000000) 0]).dropLast = some s ∧
      step s (.settle 5) = some s' ∧ s.vault.pools.get 1 = some p ∧
      s'.vault.pools.get 1 = some p' ∧ p'.indexRay < p.indexRay ∧ 0 < p'.totalShares) ∧
    ∃ s p, run step (.initial sampleDb samplePools)
        (sampleRun [.deposit 3 1 10000000000 0 103]) = some s ∧
      s.vault.pools.get 1 = some p ∧ ¬ p.Solvent := by
  have hdrop : (run step (.initial sampleDb samplePools)
      (sampleRun [.withdraw 2 102 (some 9000000000) 0]).dropLast).any (fun s =>
        (step s (.settle 5)).any fun s' => (s.vault.pools.get 1).any fun p =>
          (s'.vault.pools.get 1).any fun p' =>
            decide (p'.indexRay < p.indexRay ∧ 0 < p'.totalShares)) = true := by
    decide +kernel
  have howe : (run step (.initial sampleDb samplePools)
      (sampleRun [.deposit 3 1 10000000000 0 103])).any (fun s =>
        (s.vault.pools.get 1).any fun p =>
          decide (p.totalAssets * VAULT.RAY < (p.totalShares * p.indexRay : Int))) = true := by
    decide +kernel
  refine ⟨?_, ?_⟩
  · obtain ⟨s, hs, h⟩ := (Option.any_eq_true _ _).mp hdrop
    obtain ⟨s', hs', h⟩ := (Option.any_eq_true _ _).mp h
    obtain ⟨p, hp, h⟩ := (Option.any_eq_true _ _).mp h
    obtain ⟨p', hp', h⟩ := (Option.any_eq_true _ _).mp h
    obtain ⟨hlt, hpos⟩ := of_decide_eq_true h
    exact ⟨s, s', p, p', hs, hs', hp, hp', hlt, hpos⟩
  · obtain ⟨s, hs, h⟩ := (Option.any_eq_true _ _).mp howe
    obtain ⟨p, hp, h⟩ := (Option.any_eq_true _ _).mp h
    refine ⟨s, p, hs, hp, ?_⟩
    have hlt := of_decide_eq_true h
    unfold VaultPool.Solvent
    omega

/-- A run whose accrual is current: nothing comes in between. -/
theorem solvent_while_current_sample : ∃ s p,
    run step (.initial sampleDb samplePools) (sampleRun []) = some s ∧
      s.vault.pools.get 1 = some p ∧ VAULT.INITIAL_INDEX_RAY < p.indexRay ∧ p.Solvent := by
  have hsome : (run step (.initial sampleDb samplePools) (sampleRun [])).any (fun s =>
      (s.vault.pools.get 1).any fun p => decide (VAULT.INITIAL_INDEX_RAY < p.indexRay)) = true := by
    decide +kernel
  have hfresh : Along step Fresh (.initial sampleDb samplePools) (sampleRun []) := by
    refine .next trivial (.next trivial (.next trivial (.next trivial (.next trivial
      (.next trivial (.next (fresh_settle ?_) trivial))))))
    decide +kernel
  obtain ⟨s, hs, h⟩ := (Option.any_eq_true _ _).mp hsome
  obtain ⟨p, hp, h⟩ := (Option.any_eq_true _ _).mp h
  exact ⟨s, p, hs, hp, of_decide_eq_true h,
    ((solvent_while_current samplePools_genesis hfresh hs).1 1 p hp).1⟩

end Scadium.Vault
