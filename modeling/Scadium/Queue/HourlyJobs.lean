/-
Scadium.Queue.HourlyJobs — which hours the hourly jobs settle.

Each job derives its hour from the time it runs at (`lastCompletedHourPeriod`),
and none looks for earlier ones. So in a sequence of runs an hour is settled
once if a run comes in the hour that follows it, and never otherwise
(`hours_settled`). A run that fails settles nothing.
-/
import Scadium.Airdrop.Engine
import Scadium.Engine.BlockMining
import Scadium.Engine.Distribution
import Scadium.Lib.Periodic
import Scadium.Vault.Service

namespace Scadium.Queue

open Scadium.Lib Scadium.Lib.Periodic Scadium.Prisma Scadium.Engine

/-- A period that is settled stays so. -/
theorem or_decide_of_settled {settled : Bool} {P : Prop} [Decidable P] (finds : Bool)
    (h : P → settled = true) : settled = (settled || (decide P && finds)) := by
  by_cases hP : P
  · simp [h hP]
  · simp [hP]

/-! ## Dividends -/

section Distribution

variable {a a' : Distribution.State} {v : Distribution.Answer} {period q : Hour}

/-- The stakers as the run reads them. -/
def stakersOf (a : Distribution.State) : List (UserId × Distribution.Account) :=
  (a.users.filter fun _ user => 0 < user.scadiumStaked).entries

theorem distribute_alone : Distribution.service.alone v 4 a .distribute =
    if a.settled (lastCompletedHourPeriod a.now) then a
    else (a.settle v (lastCompletedHourPeriod a.now) v.ngr (stakersOf a)).getD a := by
  by_cases h : a.settled (lastCompletedHourPeriod a.now) = true
  · rw [if_pos h]
    exact Calls.alone_done (by simp [Distribution.service, Distribution.Call.step, h])
  · have hstep : Distribution.service.step a v .distribute =
        some (a, some (.aggregate (lastCompletedHourPeriod a.now))) := by
      simp [Distribution.service, Distribution.Call.step, h]
    rw [if_neg h, Calls.alone_goes hstep]
    rfl

theorem dividend_settled {ngr : Int} (hfailed : v.failed = false) (hnew : a.settled period = false) :
    ((a.settle v period ngr (stakersOf a)).getD a).settled q =
      (a.settled q || decide (period = q)) := by
  simp only [Distribution.State.settle, hfailed, Bool.false_eq_true, if_false]
  split
  · exact Table.any_set _ rfl _
  · have hcredits : (Distribution.State.creditAll a.users
        (Distribution.shares period ngr (stakersOf a))).isSome := by
      refine Table.updateAll_isSome _ _ ?_
      intro c hc
      obtain ⟨s, hs, rfl⟩ := List.mem_map.mp (List.mem_of_mem_filter hc)
      have hget := a.users.get_eq_some.mpr (List.mem_of_mem_filter hs)
      exact Option.isSome_iff_exists.mpr ⟨_, hget⟩
    obtain ⟨_, husers⟩ := Option.isSome_iff_exists.mp hcredits
    simp only [Distribution.State.settleRound, hnew, Bool.false_eq_true, if_false, husers,
      Option.map_some, Option.getD_some]
    exact Table.any_set _ rfl _

/-- `distribution` -/
def dividends : Job Distribution.State Distribution.Answer where
  settled := Distribution.State.settled
  period := lastCompletedHourPeriod
  finds _ _ v := !v.failed
  run a t v := Distribution.service.alone v 4 { a with now := t } .distribute
  run_settled := by
    intro a t v q
    rw [distribute_alone]
    split
    · rename_i hold
      exact or_decide_of_settled _ fun hq => hq ▸ hold
    · rename_i hnew
      cases hfailed : v.failed with
      | true => simp [Distribution.State.settle, hfailed, Distribution.State.settled]
      | false =>
        rw [dividend_settled hfailed (Bool.not_eq_true _ ▸ hnew)]
        simp [Distribution.State.settled]

end Distribution

/-! ## Blocks -/

section BlockMining

variable {α : Type} {a : BlockMining.State} {v : BlockMining.Answer} {period q : Hour}
variable {userId : UserId}

/-- The play-rates as the run reads them. -/
def ratesOf (a : BlockMining.State) (v : BlockMining.Answer) : BlockMining.PlayRates :=
  (a.users.filter fun _ user => 0 < user.scadiumStaked).entries.foldl BlockMining.addStake
    (BlockMining.activeRates (a.wagersOf v))

def rewardOf (a : BlockMining.State) (period : Hour) : Nat :=
  Shared.blockRewardAt (period * HOUR_MS) a.totalEmittedScad

theorem mineBlock_alone : BlockMining.service.alone v 5 a .mineBlock =
    if a.settled (lastCompletedHourPeriod a.now) then a
    else (a.settle v (lastCompletedHourPeriod a.now) (rewardOf a (lastCompletedHourPeriod a.now))
      (ratesOf a v)).getD a := by
  by_cases h : a.settled (lastCompletedHourPeriod a.now) = true
  · rw [if_pos h]
    exact Calls.alone_done (by simp [BlockMining.service, BlockMining.Call.step, h])
  · have hstep : BlockMining.service.step a v .mineBlock =
        some (a, some (.readEmission (lastCompletedHourPeriod a.now))) := by
      simp [BlockMining.service, BlockMining.Call.step, h]
    rw [if_neg h, Calls.alone_goes hstep]
    rfl

/-- Only the user of an item gets a rate by it. -/
theorem mem_rates {set : BlockMining.PlayRates → UserId × α → BlockMining.PlayRates}
    (hset : ∀ rates item, userId ∈ (set rates item).map Prod.fst →
      userId = item.1 ∨ userId ∈ rates.map Prod.fst)
    {items : List (UserId × α)} {rates : BlockMining.PlayRates}
    (h : userId ∈ (items.foldl set rates).map Prod.fst) :
    userId ∈ rates.map Prod.fst ∨ userId ∈ items.map Prod.fst := by
  induction items generalizing rates with
  | nil => exact .inl h
  | cons item items ih =>
    rcases ih h with hrates | hitems
    · rcases hset rates item hrates with rfl | hrates
      · exact .inr (List.mem_cons_self ..)
      · exact .inl hrates
    · exact .inr (List.mem_cons_of_mem _ hitems)

theorem mem_setActive (rates : BlockMining.PlayRates) (w : UserId × Nat)
    (h : userId ∈ (BlockMining.setActive rates w).map Prod.fst) :
    userId = w.1 ∨ userId ∈ rates.map Prod.fst := by
  rw [BlockMining.setActive] at h
  split at h
  · exact mem_keys_insertWith.mp h
  · exact .inr h

theorem mem_addStake (rates : BlockMining.PlayRates) (staker : UserId × BlockMining.Account)
    (h : userId ∈ (BlockMining.addStake rates staker).map Prod.fst) :
    userId = staker.1 ∨ userId ∈ rates.map Prod.fst := by
  rw [BlockMining.addStake] at h
  split at h
  · exact mem_keys_insertWith.mp h
  · exact .inr h

/-- Whoever has a play-rate has an account. -/
theorem ratesOf_user (hmem : userId ∈ (ratesOf a v).map Prod.fst) :
    (a.users.get userId).isSome := by
  rcases mem_rates mem_addStake hmem with hactive | hstaker
  · rcases mem_rates mem_setActive hactive with hnone | hwager
    · cases hnone
    · obtain ⟨w, hw, rfl⟩ := List.mem_map.mp hwager
      exact (List.mem_filter.mp hw).2
  · obtain ⟨p, hp, rfl⟩ := List.mem_map.mp hstaker
    exact Option.isSome_iff_exists.mpr ⟨p.2, a.users.get_eq_some.mpr (List.mem_of_mem_filter hp)⟩

/-- Everyone that a block pays has a play-rate. -/
theorem mem_creditsOf {reward roll : Nat} {rates : BlockMining.PlayRates} {c : UserId × Nat}
    (h : c ∈ BlockMining.creditsOf roll period reward rates) : c.1 ∈ rates.map Prod.fst := by
  have hordered : ∀ p ∈ BlockMining.ordered rates, p.1 ∈ rates.map Prod.fst := fun p hp =>
    List.mem_map_of_mem ((List.mem_insertionSort _).mp hp)
  rcases List.mem_append.mp h with hshare | hbig
  · obtain ⟨s, hs, rfl⟩ := List.mem_map.mp hshare
    obtain ⟨p, hp, rfl⟩ := List.mem_map.mp (List.mem_of_mem_filter hs)
    exact hordered p hp
  · obtain ⟨b, hb, rfl⟩ := List.mem_map.mp hbig
    obtain ⟨_, hwinner, rfl⟩ := Option.map_eq_some_iff.mp (Option.mem_toList.mp hb)
    rw [BlockMining.winnerId] at hwinner
    split at hwinner
    · obtain ⟨p, hp, rfl⟩ := Option.map_eq_some_iff.mp hwinner
      exact hordered p (List.mem_of_getElem? hp)
    · cases hwinner

theorem block_settled {reward : Nat} (hfailed : v.failed = false) (hnew : a.settled period = false) :
    ((a.settle v period reward (ratesOf a v)).getD a).settled q =
      (a.settled q || decide (period = q)) := by
  simp only [BlockMining.State.settle, hfailed, Bool.false_eq_true, if_false]
  split
  · exact Table.any_set _ rfl _
  · have hcredits : (BlockMining.State.creditAll a.users
        (BlockMining.creditsOf v.roll period reward (ratesOf a v))).isSome :=
      Table.updateAll_isSome _ _ fun c hc => ratesOf_user (mem_creditsOf hc)
    obtain ⟨_, husers⟩ := Option.isSome_iff_exists.mp hcredits
    simp only [BlockMining.State.settleBlock, hnew, Bool.false_eq_true, if_false, husers,
      Option.map_some, Option.getD_some]
    exact Table.any_set _ rfl _

/-- `block-mining` -/
def blocks : Job BlockMining.State BlockMining.Answer where
  settled := BlockMining.State.settled
  period := lastCompletedHourPeriod
  finds _ _ v := !v.failed
  run a t v := BlockMining.service.alone v 5 { a with now := t } .mineBlock
  run_settled := by
    intro a t v q
    rw [mineBlock_alone]
    split
    · rename_i hold
      exact or_decide_of_settled _ fun hq => hq ▸ hold
    · rename_i hnew
      cases hfailed : v.failed with
      | true => simp [BlockMining.State.settle, hfailed, BlockMining.State.settled]
      | false =>
        rw [block_settled hfailed (Bool.not_eq_true _ ▸ hnew)]
        simp [BlockMining.State.settled]

end BlockMining

/-! ## Vault yield -/

section Vault

open Scadium.Vault (VaultDb VaultSystem VaultPool PoolId)

variable {s : VaultDb} {period q : Hour}

/-- What the environment answers in a run. -/
structure AccrualAnswer where
  ngr : Int
  failed : Bool

/-- A run of `accrue()`, with nothing in between. -/
def accrue (s : VaultDb) (now : Time) (v : AccrualAnswer) : VaultDb :=
  if (s.round (lastCompletedHourPeriod now)).distributed ∨ v.failed then s
  else
    Vault.dbAfter s
      (Vault.settle s (lastCompletedHourPeriod now) v.ngr (Vault.eligible s.pools))

theorem creditPools_isOk {pools : Table PoolId VaultPool} {cs : List Vault.Credit}
    (h : ∀ c ∈ cs, (pools.get c.poolId).isSome) : ∃ pools', Vault.creditPools pools cs = .ok pools' := by
  induction cs generalizing pools with
  | nil => exact ⟨pools, rfl⟩
  | cons c cs ih =>
    obtain ⟨p, hp⟩ := Option.isSome_iff_exists.mp (h c (List.mem_cons_self ..))
    have hrows : ∀ d ∈ cs, ((pools.set c.poolId (p.credit c)).get d.poolId).isSome := by
      intro d hd
      rw [Table.get_set]
      split
      · rfl
      · exact h d (List.mem_cons_of_mem _ hd)
    obtain ⟨pools', hrest⟩ := ih hrows
    refine ⟨pools', ?_⟩
    rw [Vault.creditPools, hp]
    exact hrest

theorem accrual_settled {ngr : Int} (hnew : (s.round period).distributed = false) :
    ((Vault.dbAfter s (Vault.settle s period ngr (Vault.eligible s.pools))).round q).distributed =
      ((s.round q).distributed || decide (period = q)) := by
  have hround : ∀ (vault : VaultDb) (r : Vault.VaultAccrualRound), r.distributed = true →
      vault.rounds = s.rounds.set period r →
      (vault.round q).distributed = ((s.round q).distributed || decide (period = q)) := by
    intro vault r hr hrounds
    rw [VaultDb.round, VaultDb.round, hrounds, Table.get_set]
    by_cases hq : q = period
    · simp [hq, hr]
    · simp [hq, Ne.symm hq]
  rw [Vault.settle]
  split
  · exact hround _ _ rfl rfl
  · have hrows : ∀ c ∈ Vault.credits ngr (Vault.eligible s.pools),
        (s.pools.get c.poolId).isSome := by
      intro c hc
      obtain ⟨p, hp, rfl⟩ := List.mem_map.mp (List.mem_of_mem_filter hc)
      have hget := s.pools.get_eq_some.mpr (List.mem_of_mem_filter hp)
      exact Option.isSome_iff_exists.mpr ⟨_, hget⟩
    obtain ⟨_, hpools⟩ := creditPools_isOk hrows
    simp only [Vault.settleRound, hnew, Bool.false_eq_true, if_false, hpools]
    exact hround _ _ rfl rfl

/-- `vault-accrual` -/
def accruals : Job VaultDb AccrualAnswer where
  settled s q := (s.round q).distributed
  period := lastCompletedHourPeriod
  finds _ _ v := !v.failed
  run := accrue
  run_settled := by
    intro s t v q
    rw [accrue]
    split
    · rename_i hskip
      rcases hskip with hold | hfailed
      · exact or_decide_of_settled _ fun hq => hq ▸ hold
      · simp [hfailed]
    · rename_i hruns
      simp only [not_or, Bool.not_eq_true] at hruns
      rw [accrual_settled hruns.1]
      simp [hruns.2]

end Vault

/-! ## Airdrop -/

section Airdrop

open Scadium.Airdrop (AirdropPool)

variable {a a' : Airdrop.State} {v : Airdrop.Answer} {period nextPeriod q : Hour} {total : Nat}

def distributedIn (a : Airdrop.State) (q : Hour) : Bool := (a.pools.get q).any (·.distributed)

/-- A pool that is created or updated stays as it was marked. -/
theorem upsertPool_distributed {create seed : Nat} {update : AirdropPool → AirdropPool}
    (hupdate : ∀ pool, (update pool).distributed = pool.distributed) :
    distributedIn (a.upsertPool period create seed update) q = distributedIn a q := by
  unfold distributedIn Airdrop.State.upsertPool
  cases hget : a.pools.get period with
  | none =>
    by_cases hq : q = period
    · simp [hq, hget, AirdropPool.fresh]
    · simp [Table.get_set, hq]
  | some =>
    by_cases hq : q = period
    · simp [hq, hget, hupdate]
    · simp [Table.get_set, hq]

theorem ensureCurrentPool_distributed {baseLamports : Nat} :
    distributedIn (a.ensureCurrentPool baseLamports) q = distributedIn a q := by
  refine upsertPool_distributed ?_
  intro pool
  rfl

theorem rollOver_distributed {baseLamports : Nat} :
    distributedIn (a.rollOver baseLamports total nextPeriod) q = distributedIn a q := by
  refine upsertPool_distributed ?_
  intro pool
  rfl

/-- The users that the run finds eligible. -/
def eligibleOf (a : Airdrop.State) (v : Airdrop.Answer) : List UserId :=
  a.filterEligibleForSybil v.enforced (Airdrop.State.candidates v)

theorem eligibleOf_user {userId : UserId} (h : userId ∈ eligibleOf a v) :
    (a.users.get userId).isSome := by
  obtain ⟨p, hp, rfl⟩ := List.mem_map.mp h
  have hmem := List.mem_of_mem_filter (List.mem_of_mem_filter (List.mem_of_mem_filter hp))
  exact Option.isSome_iff_exists.mpr ⟨p.2, a.users.get_eq_some.mpr hmem⟩

/-- A pool that is open is claimed. -/
theorem settlePool_distributed {pool : AirdropPool} (hfailed : v.failed = false)
    (hpool : a.pools.get period = some pool) (hopen : pool.distributed = false) :
    distributedIn ((a.settlePool v period total (eligibleOf a v) nextPeriod).getD a) q =
      (distributedIn a q || decide (period = q)) := by
  have hclaimed : ∀ a' : Airdrop.State,
      a'.pools = a.pools.set period { pool with distributed := true } →
      distributedIn a' q = (distributedIn a q || decide (period = q)) := by
    intro a' hpools
    rw [distributedIn, hpools]
    exact Table.any_set _ rfl _
  simp only [Airdrop.State.settlePool, hpool, hfailed, hopen, Bool.false_eq_true, or_self, if_false]
  split
  · rw [Option.getD_some, rollOver_distributed]
    exact hclaimed _ rfl
  · have hcredits : ∀ share, (Airdrop.State.creditAll share a.users ((eligibleOf a v).filter
        fun userId => a.stillPlay userId v.enforced)).isSome := fun share =>
      Table.updateAll_isSome _ _ fun userId hmem => eligibleOf_user (List.mem_of_mem_filter hmem)
    obtain ⟨_, husers⟩ := Option.isSome_iff_exists.mp (hcredits (total / ((eligibleOf a v).filter
      fun userId => a.stillPlay userId v.enforced).length))
    simp only [Airdrop.State.pay, husers, Option.map_some, Option.getD_some]
    exact hclaimed _ rfl

/-- There is something in the pool of the hour. -/
def filled (a : Airdrop.State) (q : Hour) : Bool := (a.pools.get q).any fun pool => 0 < pool.contents

/-- Nothing to distribute. -/
theorem airdrop_alone_empty (h : distributedIn a (lastCompletedHourPeriod a.now) = true ∨
    filled a (lastCompletedHourPeriod a.now) = false) :
    Airdrop.service.alone v 5 a .distribute = a.ensureCurrentPool v.baseLamports := by
  have hstep : Airdrop.service.step a v .distribute = some (a, some .poolSnapshot) := by
    simp only [distributedIn, filled] at h
    simp only [Airdrop.service, Airdrop.Call.step]
    cases hpool : a.pools.get (lastCompletedHourPeriod a.now) with
    | none => rfl
    | some =>
      rw [hpool] at h
      simp only [Option.any_some, decide_eq_false_iff_not, Nat.not_lt, Nat.le_zero] at h
      simp [h]
  rw [Calls.alone_goes hstep]
  rfl

theorem airdrop_alone {pool : AirdropPool}
    (hpool : a.pools.get (lastCompletedHourPeriod a.now) = some pool)
    (hopen : pool.distributed = false) (hfilled : pool.contents ≠ 0) :
    Airdrop.service.alone v 5 a .distribute =
      ((a.settlePool v (lastCompletedHourPeriod a.now) pool.contents (eligibleOf a v)
        (periodForHour (a.now + 3600000 - 60000))).getD a).ensureCurrentPool v.baseLamports := by
  have hstep : Airdrop.service.step a v .distribute =
      some (a, some (.eligible (lastCompletedHourPeriod a.now) pool.contents)) := by
    simp [Airdrop.service, Airdrop.Call.step, hpool, hopen, hfilled]
  rw [Calls.alone_goes hstep]
  rfl

/-- `airdrop` -/
def airdrops : Job Airdrop.State Airdrop.Answer where
  settled := distributedIn
  period := lastCompletedHourPeriod
  finds a t v := !v.failed && filled a (lastCompletedHourPeriod t)
  run a t v := Airdrop.service.alone v 5 { a with now := t } .distribute
  run_settled := by
    intro a t v q
    by_cases hskip : distributedIn a (lastCompletedHourPeriod t) = true ∨
        filled a (lastCompletedHourPeriod t) = false
    · rw [airdrop_alone_empty hskip, ensureCurrentPool_distributed]
      rcases hskip with hold | hempty
      · exact or_decide_of_settled _ fun hq => hq ▸ hold
      · simp [hempty, distributedIn]
    · simp only [not_or, Bool.not_eq_true, Bool.not_eq_false] at hskip
      obtain ⟨hopen, hfilled⟩ := hskip
      obtain ⟨pool, hpool, hpos⟩ := Option.any_eq_true _ _ |>.mp hfilled
      rw [distributedIn, hpool, Option.any_some] at hopen
      rw [airdrop_alone hpool hopen (of_decide_eq_true hpos).ne', ensureCurrentPool_distributed,
        hfilled]
      cases hfailed : v.failed with
      | true => simp [Airdrop.State.settlePool, hpool, hfailed, distributedIn]
      | false =>
        rw [settlePool_distributed (a := { a with now := t }) hfailed hpool hopen]
        simp [distributedIn]

end Airdrop

/-! ## Sequences of runs -/

/-- Each of the four jobs settles an hour at most once, and settles it exactly
if a run that goes through comes in the next hour; the airdrop only if that
run finds something in the pool. -/
theorem hours_settled {as : List (Run Airdrop.State Airdrop.Answer)}
    {ds : List (Run Distribution.State Distribution.Answer)}
    {bs : List (Run BlockMining.State BlockMining.Answer)}
    {vs : List (Run Vault.VaultDb AccrualAnswer)}
    {a : Airdrop.State} {d : Distribution.State} {b : BlockMining.State} {v : Vault.VaultDb}
    {db : Db} {pools : Table Vault.PoolId Vault.VaultPool}
    (ha : History airdrops .initial as a) (hd : History dividends .initial ds d)
    (hb : History blocks .initial bs b)
    (hv : History accruals (Vault.VaultSystem.initial db pools).vault vs v) (q : Hour) :
    airdrops.SettledOnce q as ∧ dividends.SettledOnce q ds ∧ blocks.SettledOnce q bs ∧
      accruals.SettledOnce q vs :=
  ⟨settled_once ha rfl, settled_once hd rfl, settled_once hb rfl, settled_once hv rfl⟩

namespace Sample

/-- Five minutes past the hour. -/
def past (hour : Hour) : Time := hour * HOUR_MS + 300000

def plain : Airdrop.Answer := ⟨50, true, false, [], []⟩

/-- A run in hour 2, which creates the pool of that hour, and one in `hour`. -/
def twoRuns (hour : Hour) : List (Run Airdrop.State Airdrop.Answer) :=
  [⟨airdrops.run .initial (past 2) plain, past hour, plain⟩, ⟨.initial, past 2, plain⟩]

theorem twoRuns_history (hour : Hour) : History airdrops .initial (twoRuns hour)
    (airdrops.run (airdrops.run .initial (past 2) plain) (past hour) plain) :=
  .run _ _ (.run _ _ .start)

end Sample

theorem hours_settled_sample : airdrops.settlements 2 (Sample.twoRuns 3) = 1 ∧
    dividends.settlements 2 [⟨.initial, Sample.past 3, ⟨0, false⟩⟩] = 1 ∧
    blocks.settlements 2 [⟨.initial, Sample.past 3, ⟨[], 0, false⟩⟩] = 1 ∧
    accruals.settlements 2
      [⟨(Vault.VaultSystem.initial .empty .empty).vault, Sample.past 3, ⟨0, false⟩⟩] = 1 := by
  obtain ⟨ha, hd, hb, hv⟩ := hours_settled (Sample.twoRuns_history 3)
    (.run (Sample.past 3) ⟨0, false⟩ .start) (.run (Sample.past 3) ⟨[], 0, false⟩ .start)
    (History.run (Sample.past 3) ⟨0, false⟩
      .start) 2
  refine ⟨ha.settled_iff.mpr ⟨_, List.mem_cons_self .., by decide, by decide +kernel⟩, ?_, ?_, ?_⟩
  · exact hd.settled_iff.mpr ⟨_, List.mem_cons_self .., by decide, rfl⟩
  · exact hb.settled_iff.mpr ⟨_, List.mem_cons_self .., by decide, rfl⟩
  · exact hv.settled_iff.mpr ⟨_, List.mem_cons_self .., by decide, rfl⟩

/-- There is a pool in hour 2 and a later run, and the pool is never paid. -/
theorem hour_skipped : ∃ s, History airdrops .initial (Sample.twoRuns 4) s ∧
    (Sample.twoRuns 4).map Run.time = [4 * HOUR_MS + 300000, 2 * HOUR_MS + 300000] ∧
    s.pools.get 2 = some ⟨50, 0, 0, false⟩ ∧ airdrops.settlements 2 (Sample.twoRuns 4) = 0 :=
  ⟨_, Sample.twoRuns_history 4, rfl, by decide +kernel, by decide +kernel⟩

end Scadium.Queue
