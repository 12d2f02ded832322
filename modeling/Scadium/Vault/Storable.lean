/-
Scadium.Vault.Storable — the pools fit their columns.

Assets and shares do: the assets are part of the supply, and a position has no
more shares than was paid in for it, the index being one or more. The index is
raised by penalties and yield divided by the shares that are there, and has room
for less than nine units a share. So an early exit that leaves few shares does
not fit, and is refused by the database after it has passed every check. `Roomy`
is the exact condition: the raise fits the room that is left, share by share.

A run of the vault is what would be written; it stays storable as long as
every commit in it succeeds.
-/
import Scadium.Vault.Solvency

namespace Scadium.Vault

open Scadium.Lib Scadium.Lib.ShareIndex Scadium.Prisma Scadium.Prisma.Committed Scadium.Shared

/-- The first number that a `BigInt` column cannot hold. -/
def COLUMN_LIMIT : Nat := 2 ^ 63

/-- All SCAD there is, in base units. -/
def TOTAL_SUPPLY_BASE : Nat := 1000000000 * 10 ^ 9

/-! ## The properties -/

structure VaultPool.Storable (p : VaultPool) : Prop where
  totalAssets : p.totalAssets < COLUMN_LIMIT
  totalShares : p.totalShares < COLUMN_LIMIT
  indexRay : p.indexRay < COLUMN_LIMIT

def VaultSystem.Storable (s : VaultSystem) : Prop :=
  ∀ id p, s.vault.pools.get id = some p → p.Storable

def VaultSystem.IndexStorable (s : VaultSystem) : Prop :=
  ∀ id p, s.vault.pools.get id = some p → p.indexRay < COLUMN_LIMIT

/-- What the positions in a pool were paid in for. -/
def VaultDb.principalIn (s : VaultDb) (id : PoolId) : Nat :=
  s.positions.sum fun q => if q.poolId = id then q.principal else 0

/-- No pool holds more than there is, and no more than there is was paid in. -/
def VaultSystem.Supplied (s : VaultSystem) : Prop :=
  ∀ id p, s.vault.pools.get id = some p →
    p.totalAssets ≤ TOTAL_SUPPLY_BASE ∧ s.vault.principalIn id ≤ TOTAL_SUPPLY_BASE

/-- What is credited to some shares fits above the index. -/
def Room (indexRay shares credited : Nat) : Prop :=
  credited * VAULT.RAY < (COLUMN_LIMIT - indexRay) * shares

/-- The penalty of an exit fits, share by share, above the index, unless no
shares are left; and so does the yield of an accrual. -/
def Roomy (s : VaultSystem) : Act → Prop
  | .withdraw _ positionId shares now =>
      ∀ position ∈ s.vault.positions.get positionId,
      ∀ pool ∈ s.vault.pools.get position.poolId,
        let burned := (shares.getD position.shares).toNat
        let penalty := penaltyFor (now < position.maturesAt) (assetsForShares burned pool.indexRay)
        pool.totalShares - burned = 0 ∨ penalty = 0 ∨
          Room pool.indexRay (pool.totalShares - burned) penalty
  | .settle run => ∀ c ∈ s.creditsDue run, Room c.seen.indexRay c.seen.totalShares c.poolYield
  | _ => True

instance (indexRay shares credited : Nat) : Decidable (Room indexRay shares credited) :=
  inferInstanceAs (Decidable (_ < _))

instance (s : VaultSystem) : (act : Act) → Decidable (Roomy s act)
  | .withdraw _ positionId _ _ => inferInstanceAs (Decidable
      (∀ position ∈ s.vault.positions.get positionId,
        ∀ pool ∈ s.vault.pools.get position.poolId, _ ∨ _ ∨ _))
  | .settle run => inferInstanceAs (Decidable (∀ c ∈ s.creditsDue run, _))
  | .deposit .. | .accrue .. | .findRound .. | .aggregate .. | .findPools .. | .kill .. =>
      .isTrue trivial

/-! ## One pool -/

theorem applyAccrual_lt_iff {indexRay shares credited : Nat} (hshares : 0 < shares) :
    applyAccrual indexRay shares credited < COLUMN_LIMIT ↔ Room indexRay shares credited := by
  rw [applyAccrual_eq, raise_lt_iff hshares]
  rfl

theorem exit_indexRay_lt_iff {p : VaultPool} (hp : p.indexRay < COLUMN_LIMIT)
    (burned net penalty : Nat) : (p.exit burned net penalty).indexRay < COLUMN_LIMIT ↔
      (p.totalShares - burned = 0 ∨ penalty = 0 ∨
        Room p.indexRay (p.totalShares - burned) penalty) := by
  unfold VaultPool.exit
  simp only
  by_cases hleft : p.totalShares - burned = 0
  · have hinitial : VAULT.INITIAL_INDEX_RAY < COLUMN_LIMIT := by decide
    simp [hleft, hinitial]
  · rw [if_neg hleft]
    by_cases hzero : penalty = 0
    · simp [hzero, applyAccrual, hp]
    · rw [applyAccrual_lt_iff (Nat.pos_of_ne_zero hleft)]
      simp [hleft, hzero]

/-! ## What a run has read -/

/-- The pools a run has read are still there, and had shares. -/
def Present (s : VaultSystem) : Prop :=
  ∀ run period ngr pools, s.runs.get run = some (.planned period ngr pools) →
    ∀ p ∈ pools, (s.vault.pools.get p.1).isSome ∧ 0 < p.2.totalShares

theorem mem_eligible {pools : Table PoolId VaultPool} {p : PoolId × VaultPool}
    (h : p ∈ eligible pools) : (pools.get p.1).isSome ∧ 0 < p.2.totalShares := by
  obtain ⟨hmem, hguard⟩ := List.mem_filter.mp h
  simp only [Bool.and_eq_true, decide_eq_true_eq] at hguard
  have hget : pools.get p.1 = some p.2 := pools.get_eq_some.mpr hmem
  exact ⟨by rw [hget]; rfl, hguard.2⟩

variable {s s' : VaultSystem} {act : Act}

theorem present_step (hi : Tally s) (hp : Present s) (h : step s act = some s') : Present s' := by
  intro run period ngr pools hrun p hmem
  have hmoved := moved_step hi h
  obtain hold | ⟨rfl, hvault⟩ := planned_before h hrun
  · obtain ⟨hsome, hpos⟩ := hp run period ngr pools hold p hmem
    obtain ⟨pool, hpool⟩ := Option.isSome_iff_exists.mp hsome
    obtain ⟨_, hpool', -⟩ := hmoved.pool p.1 pool hpool (hi.shares _ _ hpool)
    exact ⟨by rw [hpool']; rfl, hpos⟩
  · rw [hvault]
    exact mem_eligible hmem

/-! ## The index of one pool after a step -/

/-- All indexes of some pools are so. -/
def Indexes (P : Nat → Prop) (pools : Table PoolId VaultPool) : Prop :=
  ∀ id p, pools.get id = some p → P p.indexRay

variable {P : Nat → Prop}

theorem indexes_set {pools : Table PoolId VaultPool} (h : Indexes P pools) {id : PoolId}
    {p : VaultPool} : Indexes P (pools.set id p) ↔ P p.indexRay := by
  constructor
  · intro hset
    exact hset id p (by simp)
  · exact fun hp => pools.forall_set h hp

theorem deposit_indexes {v v' : VaultDb} {userId : UserId} {poolId : PoolId} {amount : Nat}
    {pool : VaultPool} {positionId : PositionId} {maturesAt : Time} (hindexes : Indexes P v.pools)
    (h : Deposited v v' userId poolId amount pool positionId maturesAt) : Indexes P v'.pools := by
  rw [h.pools, indexes_set hindexes]
  exact hindexes poolId pool h.found

theorem withdraw_indexes {v' : VaultDb} {userId : UserId} {positionId : PositionId}
    {shares : Option Int} {now : Time} {r : WithdrawResult}
    (hfit : Indexes (· < COLUMN_LIMIT) s.vault.pools)
    (h : withdraw s.vault userId positionId shares now = .ok (v', r)) :
    Indexes (· < COLUMN_LIMIT) v'.pools ↔ Roomy s (.withdraw userId positionId shares now) := by
  obtain ⟨position, pool, hw, -, _, hearly⟩ := withdraw_ok h
  have hshares : (shares.getD position.shares).toNat = r.sharesBurned := by omega
  have hpenalty : penaltyFor (now < position.maturesAt)
      (assetsForShares r.sharesBurned pool.indexRay) = r.penaltyAssets := by
    rw [hw.penalty, hw.gross, assetsForShares_eq, penaltyFor, earlyExitPenalty_eq, hearly]
  rw [hw.pools, indexes_set hfit, exit_indexRay_lt_iff (hfit _ pool hw.inPool)]
  constructor
  · intro hroom position' hposition pool' hpool
    cases hw.found.symm.trans hposition
    cases hw.inPool.symm.trans hpool
    simpa only [hshares, hpenalty] using hroom
  · intro hroom
    have hthis := hroom position hw.found pool hw.inPool
    simpa only [hshares, hpenalty] using hthis

/-- Credits to pools that are there go through. -/
theorem creditPools_some {cs : List Credit} {pools : Table PoolId VaultPool}
    (h : ∀ c ∈ cs, (pools.get c.poolId).isSome) : ∃ pools', creditPools pools cs = .ok pools' := by
  induction cs generalizing pools with
  | nil => exact ⟨pools, rfl⟩
  | cons c cs ih =>
    obtain ⟨p, hp⟩ := Option.isSome_iff_exists.mp (h c (List.mem_cons_self ..))
    have hthere : ∀ d ∈ cs, ((pools.set c.poolId (p.credit c)).get d.poolId).isSome := by
      intro d hd
      rw [Table.get_set]
      split
      · rfl
      · exact h d (List.mem_cons_of_mem _ hd)
    obtain ⟨pools', hrest⟩ := ih hthere
    refine ⟨pools', ?_⟩
    simp only [creditPools, bind_ok, orThrow_ok]
    exact ⟨p, hp, hrest⟩

theorem credits_indexes {cs : List Credit} {pools pools' : Table PoolId VaultPool}
    (hindexes : Indexes P pools) (hnodup : (cs.map Credit.poolId).Nodup)
    (h : creditPools pools cs = .ok pools') :
    Indexes P pools' ↔ ∀ c ∈ cs, P c.newIndex := by
  obtain ⟨hcredited, hother⟩ := creditPools_ok h hnodup
  constructor
  · intro hindexes' c hc
    obtain ⟨p, -, hp⟩ := hcredited c hc
    exact hindexes' c.poolId (p.credit c) hp
  · intro hall id p' hp'
    by_cases hid : id ∈ cs.map Credit.poolId
    · obtain ⟨c, hc, rfl⟩ := List.mem_map.mp hid
      obtain ⟨p, -, hp⟩ := hcredited c hc
      cases hp.symm.trans hp'
      exact hall c hc
    · rw [hother id hid] at hp'
      exact hindexes id p' hp'

theorem mem_credits {ngr : Int} {pools : List (PoolId × VaultPool)} {c : Credit}
    (h : c ∈ credits ngr pools) : ∃ p ∈ pools, c.poolId = p.1 ∧ c.seen = p.2 := by
  obtain ⟨p, hp, rfl⟩ := List.mem_map.mp (List.mem_filter.mp h).1
  exact ⟨p, hp, rfl, rfl⟩

/-- A run's last step writes the credits that are due. -/
theorem settle_pools {run : RunId} {period : Period} {ngr : Int}
    {pools : List (PoolId × VaultPool)} (hp : Present s)
    (hrun : s.runs.get run = some (.planned period ngr pools)) :
    creditPools s.vault.pools (s.creditsDue run) =
      .ok (dbAfter s.vault (settle s.vault period ngr pools)).pools := by
  unfold VaultSystem.creditsDue settle
  simp only [hrun]
  cases hyield : noYield ngr pools with
  | true => rfl
  | false =>
    cases hround : (s.vault.round period).distributed with
    | true =>
      unfold settleRound
      simp [hround, dbAfter, creditPools]
    | false =>
      have hthere : ∀ c ∈ credits ngr pools, (s.vault.pools.get c.poolId).isSome := by
        intro c hc
        obtain ⟨p, hmem, hid, -⟩ := mem_credits hc
        rw [hid]
        exact (hp run period ngr pools hrun p hmem).1
      obtain ⟨_, hcredit⟩ := creditPools_some hthere
      unfold settleRound
      simp [hround, hcredit, dbAfter]

theorem settle_positions (v : VaultDb) (period : Period) (ngr : Int)
    (pools : List (PoolId × VaultPool)) :
    (dbAfter v (settle v period ngr pools)).positions = v.positions := by
  unfold settle
  split
  · rfl
  · unfold settleRound
    split
    · rfl
    · cases hcredit : creditPools v.pools (credits ngr pools) with
      | error | ok => simp [hcredit, dbAfter]

theorem mem_creditsDue {run : RunId} {c : Credit} (h : c ∈ s.creditsDue run) :
    ∃ period ngr pools, s.runs.get run = some (.planned period ngr pools) ∧
      c ∈ credits ngr pools := by
  unfold VaultSystem.creditsDue at h
  split at h
  case h_1 period ngr pools hrun =>
    refine ⟨period, ngr, pools, hrun, ?_⟩
    split at h
    · cases h
    · exact h
  case h_2 => cases h

theorem creditsDue_nodup (hi : Tally s) (run : RunId) :
    ((s.creditsDue run).map Credit.poolId).Nodup := by
  unfold VaultSystem.creditsDue
  split
  case h_1 period ngr pools hrun =>
    split
    · exact List.nodup_nil
    · exact credits_poolIds (hi.planned run period ngr pools hrun)
  case h_2 => exact List.nodup_nil

/-- A step whose indexes fit is `Roomy`, and no other is. -/
theorem indexes_step (hi : Tally s) (hp : Present s) (hfit : s.IndexStorable)
    (h : step s act = some s') : s'.IndexStorable ↔ Roomy s act := by
  cases effect h with
  | deposit hd =>
    have hfit' : Indexes (· < COLUMN_LIMIT) s.vault.pools := hfit
    exact iff_of_true (deposit_indexes hfit' hd) trivial
  | withdraw hw => exact withdraw_indexes hfit hw
  | @settle run period ngr pools hrun hvault =>
    have hfit' : Indexes (· < COLUMN_LIMIT) s.vault.pools := hfit
    have hcredits := credits_indexes hfit' (creditsDue_nodup hi run) (settle_pools hp hrun)
    unfold VaultSystem.IndexStorable
    rw [hvault]
    refine hcredits.trans (forall₂_congr ?_)
    intro c hc
    obtain ⟨period', ngr', pools', hrun', hc⟩ := mem_creditsDue hc
    obtain ⟨p, hmem, -, hseen⟩ := mem_credits hc
    have hpos : 0 < c.seen.totalShares := by
      rw [hseen]
      exact (hp run period' ngr' pools' hrun' p hmem).2
    exact applyAccrual_lt_iff hpos
  | other hvault hwithdraw hsettle =>
    have hroomy : Roomy s act := by
      cases act with
      | withdraw => exact absurd rfl (hwithdraw _ _ _ _)
      | settle run => exact absurd rfl (hsettle run)
      | _ => trivial
    unfold VaultSystem.IndexStorable
    rw [hvault]
    exact iff_of_true hfit hroomy

/-! ## The shares -/

/-- No index is below one, in the pools and in what a run has read of them, and
no position has more shares than was paid in for it. -/
structure Priced (s : VaultSystem) : Prop where
  index : ∀ id p, s.vault.pools.get id = some p → VAULT.RAY ≤ p.indexRay
  seen : ∀ r period ngr pools, s.runs.get r = some (.planned period ngr pools) →
    ∀ p ∈ pools, VAULT.RAY ≤ p.2.indexRay
  paid : ∀ k q, s.vault.positions.get k = some q → q.shares ≤ q.principal

/-- What is left of a position was still paid in for. -/
theorem portion_le {position : VaultPosition} {burned : Nat}
    (hpaid : position.shares ≤ position.principal) (hle : burned ≤ position.shares) :
    position.shares - burned ≤ position.principal - principalPortion position burned := by
  unfold principalPortion
  split
  · omega
  · obtain ⟨d, hd⟩ := Nat.exists_eq_add_of_le hpaid
    rw [hd, Nat.add_mul]
    rcases Nat.eq_zero_or_pos position.shares with hzero | hpos
    · omega
    · rw [Nat.add_comm (position.shares * burned), Nat.add_mul_div_left _ _ hpos]
      have hpart : d * burned / position.shares ≤ d :=
        Nat.div_le_of_le_mul (by rw [Nat.mul_comm]; exact Nat.mul_le_mul_right d hle)
      omega

theorem priced_initial (db : Db) {pools : Table PoolId VaultPool}
    (hpools : ∀ id p, pools.get id = some p → p.Genesis) : Priced (.initial db pools) where
  index id p hp := (hpools id p hp).2.2.ge
  seen r period ngr pools hr := by cases hr
  paid k q hq := by cases hq

/-- A deposit at an index of one or more mints no more shares than it is. -/
theorem minted_le {amount indexRay : Nat} (h : VAULT.RAY ≤ indexRay) :
    amount * VAULT.RAY / indexRay ≤ amount := by
  refine Nat.div_le_of_le_mul ?_
  rw [Nat.mul_comm]
  exact Nat.mul_le_mul_right amount h

/-- No index goes below one. -/
theorem floor_step (hi : Tally s) (hread : Present s) (hp : Priced s)
    (h : step s act = some s') :
    Indexes (VAULT.RAY ≤ ·) s'.vault.pools := by
  cases effect h with
  | deposit hd => exact deposit_indexes hp.index hd
  | withdraw hw =>
    obtain ⟨_, pool, hw, -⟩ := withdraw_ok hw
    rw [hw.pools, indexes_set hp.index]
    have hpool := hp.index _ pool hw.inPool
    rcases pool.exit_indexRay _ _ _ with hkept | ⟨-, hreset⟩
    · exact hpool.trans hkept
    · exact hreset.ge
  | @settle run period ngr pools hrun hvault =>
    have hindexes : Indexes (VAULT.RAY ≤ ·) s.vault.pools := hp.index
    rw [hvault, credits_indexes hindexes (creditsDue_nodup hi run) (settle_pools hread hrun)]
    intro c hc
    obtain ⟨period', ngr', pools', hrun', hc⟩ := mem_creditsDue hc
    obtain ⟨p, hmem, -, hseen⟩ := mem_credits hc
    rw [c.newIndex_eq, hseen]
    exact (hp.seen run period' ngr' pools' hrun' p hmem).trans (Nat.le_add_right _ _)
  | other hvault =>
    rw [hvault]
    exact hp.index

theorem paid_step (hp : Priced s) (h : step s act = some s') :
    ∀ k q, s'.vault.positions.get k = some q → q.shares ≤ q.principal := by
  cases effect h with
  | deposit hd =>
    rw [hd.positions]
    exact Table.forall_set _ hp.paid (minted_le (hp.index _ _ hd.found))
  | withdraw hw =>
    obtain ⟨_, _, hw, -⟩ := withdraw_ok hw
    rw [hw.positions]
    unfold exitPosition
    split
    · exact Table.forall_erase _ hp.paid
    · exact Table.forall_set _ hp.paid (portion_le (hp.paid _ _ hw.found) hw.burned_le)
  | settle hrun hvault =>
    rw [hvault, settle_positions]
    exact hp.paid
  | other hvault =>
    rw [hvault]
    exact hp.paid

theorem priced_step (hi : Tally s) (hread : Present s) (hp : Priced s)
    (h : step s act = some s') : Priced s' where
  index := floor_step hi hread hp h
  seen r period ngr pools hr p hmem := by
    obtain hold | ⟨rfl, _⟩ := planned_before h hr
    · exact hp.seen r period ngr pools hold p hmem
    · obtain ⟨hmem, -⟩ := List.mem_filter.mp hmem
      exact hp.index p.1 p.2 (s.vault.pools.get_eq_some.mpr hmem)
  paid := paid_step hp h

/-! ## Runs -/

structure Coherent (s : VaultSystem) : Prop extends Tally s, Priced s where
  present : Present s

theorem coherent_initial (db : Db) {pools : Table PoolId VaultPool}
    (hpools : ∀ id p, pools.get id = some p → p.Genesis) : Coherent (.initial db pools) where
  toTally := (inv_initial db hpools).toTally
  toPriced := priced_initial db hpools
  present r period ngr pools hr := by cases hr

theorem coherent_step (hi : Coherent s) (h : step s act = some s') : Coherent s' where
  toTally := tally_step hi.toTally h
  toPriced := priced_step hi.toTally hi.present hi.toPriced h
  present := present_step hi.toTally hi.present h

/-- The shares of a pool are not more than was paid in for them. -/
theorem Coherent.shares_le (hi : Coherent s) {id : PoolId} {p : VaultPool}
    (hp : s.vault.pools.get id = some p) : p.totalShares ≤ s.vault.principalIn id := by
  rw [← hi.shares id p hp]
  refine Table.sum_mono _ ?_
  intro k q hq
  split
  · exact hi.paid k q hq
  · exact Nat.le_refl _

theorem supply_lt_limit : TOTAL_SUPPLY_BASE < COLUMN_LIMIT := by decide

/-- Within the supply only the index can be too large. -/
theorem Coherent.storable_iff (hi : Coherent s) (hsupply : s.Supplied) :
    s.Storable ↔ s.IndexStorable := by
  constructor
  · exact fun h id p hp => (h id p hp).indexRay
  · intro h id p hp
    have hlimit := supply_lt_limit
    obtain ⟨_, _⟩ := hsupply id p hp
    have hshares := hi.shares_le hp
    exact ⟨by omega, by omega, h id p hp⟩

variable {db : Db} {pools : Table PoolId VaultPool} {es : List Act}

theorem coherent_run (hpools : ∀ id p, pools.get id = some p → p.Genesis)
    (hrun : run step (.initial db pools) es = some s) : Coherent s :=
  run_invariant (fun _ _ _ => coherent_step) (coherent_initial db hpools) hrun

theorem initial_indexStorable (hpools : ∀ id p, pools.get id = some p → p.Genesis) :
    (VaultSystem.initial db pools).IndexStorable := by
  intro id p hp
  rw [(hpools id p hp).2.2]
  decide

/-- In every run within the supply, every pool fits its columns in every state
exactly if every early exit and every accrual of the run raises the index by no
more than it has room for. -/
theorem storable_iff_roomy (hpools : ∀ id p, pools.get id = some p → p.Genesis)
    (hsupply : Throughout step (.initial db pools) es VaultSystem.Supplied)
    (hrun : run step (.initial db pools) es = some s) :
    Throughout step (.initial db pools) es VaultSystem.Storable ↔
      Along step Roomy (.initial db pools) es := by
  have hindex : Throughout step (.initial db pools) es VaultSystem.Storable ↔
      Throughout step (.initial db pools) es VaultSystem.IndexStorable := by
    refine forall₅_congr ?_
    intro before after t heq ht
    exact (coherent_run hpools ht).storable_iff (hsupply before after t heq ht)
  rw [hindex]
  refine throughout_iff_along (P := Coherent) (fun _ _ _ => coherent_step) ?_
    (coherent_initial db hpools) (initial_indexStorable hpools) hrun
  intro s act s' hi hfit h
  exact indexes_step hi.toTally hi.present hfit h

/-! ## The last share -/

instance (s : VaultSystem) : Decidable s.Supplied :=
  decidable_of_iff (∀ p ∈ s.vault.pools.entries, p.2.totalAssets ≤ TOTAL_SUPPLY_BASE ∧
      s.vault.principalIn p.1 ≤ TOTAL_SUPPLY_BASE) (by
    constructor
    · exact fun h id p hp => h (id, p) (s.vault.pools.get_eq_some.mp hp)
    · exact fun h p hp => h p.1 p.2 (s.vault.pools.get_eq_some.mpr hp))

namespace Storable.Sample

/-- The only staker leaves half at once. -/
def half : List Act := [.deposit 1 1 10000000000 0 101, .withdraw 1 101 (some 5000000000) 0]

/-- And here all but one share. -/
def allButOne : List Act := [.deposit 1 1 10000000000 0 101, .withdraw 1 101 (some 9999999999) 0]

end Storable.Sample

open Storable in
/-- All but one share leave early: the penalty is a thousand million shares'
worth to the one that is left. -/
theorem index_overflows : ∃ s p, run step (.initial sampleDb samplePools) Sample.allButOne =
      some s ∧
    Throughout step (.initial sampleDb samplePools) Sample.allButOne VaultSystem.Supplied ∧
    s.vault.pools.get 1 = some p ∧ ¬ p.Storable := by
  have hsupply : Throughout step (.initial sampleDb samplePools) Sample.allButOne
      VaultSystem.Supplied := by
    decide +kernel
  have hover : (run step (.initial sampleDb samplePools) Sample.allButOne).any (fun s =>
      (s.vault.pools.get 1).any fun p => decide (COLUMN_LIMIT ≤ p.indexRay)) = true := by
    decide +kernel
  obtain ⟨s, hs, h⟩ := (Option.any_eq_true _ _).mp hover
  obtain ⟨p, hp, h⟩ := (Option.any_eq_true _ _).mp h
  refine ⟨s, p, hs, hsupply, hp, ?_⟩
  intro hfits
  exact Nat.not_lt.mpr (of_decide_eq_true h) hfits.indexRay

open Storable in
theorem storable_iff_roomy_half : ∃ s p, run step (.initial sampleDb samplePools) Sample.half =
      some s ∧ s.vault.pools.get 1 = some p ∧ VAULT.INITIAL_INDEX_RAY < p.indexRay ∧ p.Storable := by
  have hsupply : Throughout step (.initial sampleDb samplePools) Sample.half
      VaultSystem.Supplied := by
    decide +kernel
  have hsome : (run step (.initial sampleDb samplePools) Sample.half).any (fun s =>
      (s.vault.pools.get 1).any fun p =>
        decide (VAULT.INITIAL_INDEX_RAY < p.indexRay)) = true := by
    decide +kernel
  obtain ⟨s, hs, h⟩ := (Option.any_eq_true _ _).mp hsome
  obtain ⟨p, hp, h⟩ := (Option.any_eq_true _ _).mp h
  have hroomy : Along step Roomy (.initial sampleDb samplePools) Sample.half := by
    decide +kernel
  have hall := (storable_iff_roomy samplePools_genesis hsupply hs).mpr hroomy
  exact ⟨s, p, hs, hp, of_decide_eq_true h, hall Sample.half [] s rfl hs 1 p hp⟩

end Scadium.Vault
