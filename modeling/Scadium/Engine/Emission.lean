/-
Scadium.Engine.Emission — what block mining emits, in all.

A block is mined once: the rows of an hour are those of one block, whatever
runs settle it, and they come to no more than the subsidy of the hour. So
the hours since the genesis never exhaust the pool, as the subsidy halves.
The clamp of `blockRewardAt` is what bounds the emission otherwise, and it is
computed from a total that is read before the transaction: two runs that
read the same total may both spend what is left.
-/
import Scadium.Engine.BlockMining
import Scadium.Lib.Halving

namespace Scadium.Engine.BlockMining

open Scadium.Lib Scadium.Lib.Calls Scadium.Prisma Scadium.Queue Scadium.Shared

/-! ## The schedule -/

/-- The hour that begins at `MINING.GENESIS_MS`. -/
def genesisHour : Hour := MINING.GENESIS_MS / HOUR_MS

/-- The reward of an hour before it is clamped to the pool. -/
def subsidy (period : Hour) : Nat :=
  GENESIS_BLOCK_REWARD_BASE >>> emissionEraAt (period * HOUR_MS)

variable {period q : Hour} {reward roll : Nat} {rates : PlayRates}

theorem subsidy_eq (period : Hour) : subsidy period =
    GENESIS_BLOCK_REWARD_BASE / 2 ^ ((period - genesisHour) / MINING.HOURS_PER_HALVING) := by
  have hgenesis : MINING.GENESIS_MS = genesisHour * HOUR_MS := by decide
  have hera : MINING.MS_PER_HALVING = MINING.HOURS_PER_HALVING * HOUR_MS := by decide
  rw [subsidy, emissionEraAt, Nat.shiftRight_eq_div_pow, hgenesis, hera, ← Nat.sub_mul,
    Nat.mul_div_mul_right _ _ (by decide)]

/-- The subsidies of any hours since the genesis fit into the pool. -/
theorem sum_subsidy_le {hours : Finset Hour} (h : ∀ q ∈ hours, genesisHour ≤ q) :
    ∑ q ∈ hours, subsidy q ≤ SCAD.P2E_POOL_BASE := by
  simp only [subsidy_eq]
  have hsum := sum_halvings_le (show 0 < MINING.HOURS_PER_HALVING by decide)
    GENESIS_BLOCK_REWARD_BASE genesisHour h
  exact hsum.trans (by decide)

theorem blockRewardAt_le (period : Hour) (emitted : Nat) :
    blockRewardAt (period * HOUR_MS) emitted ≤ subsidy period := Nat.min_le_left _ _

/-! ## One block -/

theorem blockShare_eq (playRate total pool : Nat) :
    blockShare playRate total pool = pool * playRate / total := by
  unfold blockShare
  split
  · rename_i hzero
    rcases hzero with rfl | rfl | rfl <;> simp
  · rfl

theorem bigReward_le (reward : Nat) : bigReward reward ≤ reward := by
  unfold bigReward
  have hbps : ENGINE.BIG_REWARD_BPS ≤ 10000 := by decide
  refine Nat.div_le_of_le_mul ?_
  rw [Nat.mul_comm 10000]
  exact Nat.mul_le_mul_left reward hbps

theorem weight_ordered (rates : PlayRates) :
    weight Prod.snd (ordered rates) = totalPlayRate rates :=
  weight_perm Prod.snd (List.perm_insertionSort _ rates)

theorem weight_sharesOf (period : Hour) (reward : Nat) (rates : PlayRates) :
    weight EngineBlockShare.shareScad (sharesOf period reward rates) =
      weight (fun p : UserId × Nat =>
        (reward - bigReward reward) * p.2 / totalPlayRate rates) (ordered rates) := by
  rw [sharesOf, weight_filter (fun s _ hs => by simpa using hs), weight_map]
  simp only [blockShare_eq]
  rfl

/-- The pro-rata shares come to no more than their part of the block. -/
theorem weight_sharesOf_le (period : Hour) (reward : Nat) (rates : PlayRates) :
    weight EngineBlockShare.shareScad (sharesOf period reward rates) ≤
      reward - bigReward reward := by
  rw [weight_sharesOf]
  refine (weight_pro_rata_le Prod.snd _ _ _).trans ?_
  rw [weight_ordered]
  exact Nat.div_le_of_le_mul (Nat.le_of_eq (Nat.mul_comm _ _))

theorem weight_bigRewardsOf_le (roll : Nat) (period : Hour) (reward : Nat) (rates : PlayRates) :
    weight BigReward.rewardScad (bigRewardsOf roll period reward rates) ≤ bigReward reward := by
  unfold bigRewardsOf
  cases winnerId roll reward rates with
  | none => simp
  | some => simp

/-- A block mints no more than its reward. -/
theorem block_le (roll : Nat) (period : Hour) (reward : Nat) (rates : PlayRates) :
    weight EngineBlockShare.shareScad (sharesOf period reward rates) +
      weight BigReward.rewardScad (bigRewardsOf roll period reward rates) ≤ reward := by
  have hshares := weight_sharesOf_le period reward rates
  have hbig := weight_bigRewardsOf_le roll period reward rates
  have hle := bigReward_le reward
  omega

/-! ## What was emitted -/

/-- The credits of all blocks, each with its hour. -/
def State.credits (a : State) : List (Hour × Nat) :=
  a.shares.map (fun s => (s.period, s.shareScad)) ++
    a.bigRewards.map fun b => (b.period, b.rewardScad)

/-- All the SCAD that block mining credited. -/
def State.minted (a : State) : Nat := weight Prod.snd a.credits

/-- The rows of the hour are those of one block: that of one reward, one set of
play-rates and one draw. -/
def MinedOnce (a : State) (q : Hour) : Prop :=
  ∃ roll reward rates, reward ≤ subsidy q ∧
    a.shares.filter (·.period = q) = sharesOf q reward rates ∧
    a.bigRewards.filter (·.period = q) = bigRewardsOf roll q reward rates

/-- The emission is within the pool, and every block was mined at most once. -/
structure Bounded (a : State) : Prop where
  pool : a.minted ≤ SCAD.P2E_POOL_BASE
  blocks : ∀ q, MinedOnce a q

variable {a : State}

theorem minted_eq (a : State) : a.minted =
    weight EngineBlockShare.shareScad a.shares + weight BigReward.rewardScad a.bigRewards := by
  rw [State.minted, State.credits, weight_append, weight_map, weight_map]
  rfl

/-- What an hour minted. -/
theorem weight_credits (a : State) (q : Hour) :
    weight Prod.snd (a.credits.filter (·.1 = q)) =
      weight EngineBlockShare.shareScad (a.shares.filter (·.period = q)) +
        weight BigReward.rewardScad (a.bigRewards.filter (·.period = q)) := by
  rw [State.credits, List.filter_append, List.filter_map, List.filter_map, weight_append,
    weight_map, weight_map]
  rfl

theorem MinedOnce.weight_le (h : MinedOnce a q) :
    weight Prod.snd (a.credits.filter (·.1 = q)) ≤ subsidy q := by
  obtain ⟨roll, reward, rates, hreward, hshares, hbig⟩ := h
  rw [weight_credits, hshares, hbig]
  exact (block_le roll q reward rates).trans hreward

/-- Hours since the genesis only. -/
theorem minted_le_of_since (hblocks : ∀ q, MinedOnce a q)
    (hsince : ∀ p ∈ a.credits, genesisHour ≤ p.1) : a.minted ≤ SCAD.P2E_POOL_BASE := by
  have hkeys : ∀ p ∈ a.credits, p.1 ∈ (a.credits.map Prod.fst).toFinset := fun p hp =>
    List.mem_toFinset.mpr (List.mem_map_of_mem hp)
  refine (weight_le_sum_keys hkeys fun q => (hblocks q).weight_le).trans (sum_subsidy_le ?_)
  intro q hq
  obtain ⟨p, hp, rfl⟩ := List.mem_map.mp (List.mem_toFinset.mp hq)
  exact hsince p hp

/-! ## Settlements -/

/-- Every row has its hour settled, and the cursor counts the rows. -/
structure Mined (a : State) : Prop where
  cursor : a.totalEmittedScad = a.minted
  settled : ∀ p ∈ a.credits, a.settled p.1 = true
  blocks : ∀ q, MinedOnce a q

theorem mined_initial : Mined .initial where
  cursor := rfl
  settled := by
    intro p hp
    cases hp
  blocks q := ⟨0, 0, [], Nat.zero_le _, rfl, rfl⟩

/-- A new block, of an hour that was not settled. -/
structure Minted (a a' : State) (period : Hour) (reward : Nat) (rates : PlayRates) (roll : Nat) :
    Prop where
  new : a.settled period = false
  shares : a'.shares = sharesOf period reward rates ++ a.shares
  bigRewards : a'.bigRewards = bigRewardsOf roll period reward rates ++ a.bigRewards
  cursor : a'.totalEmittedScad = a.totalEmittedScad +
    (weight EngineBlockShare.shareScad (sharesOf period reward rates) +
      weight BigReward.rewardScad (bigRewardsOf roll period reward rates))
  settled : ∀ q, a'.settled q = (a.settled q || decide (period = q))
  users : State.creditAll a.users (creditsOf roll period reward rates) = some a'.users

/-- The rows stay; settled hours stay settled. -/
structure Untouched (a a' : State) : Prop where
  shares : a'.shares = a.shares
  bigRewards : a'.bigRewards = a.bigRewards
  cursor : a'.totalEmittedScad = a.totalEmittedScad
  settled : ∀ q, a.settled q = true → a'.settled q = true

theorem Untouched.refl (a : State) : Untouched a a := ⟨rfl, rfl, rfl, fun _ h => h⟩

/-- The accounts stay, too. -/
structure Unpaid (a a' : State) : Prop extends Untouched a a' where
  users : a'.users = a.users

theorem Unpaid.refl (a : State) : Unpaid a a := ⟨.refl a, rfl⟩

variable {a' : State} {v : Answer}

theorem settleEmpty_unpaid (a : State) (period : Hour) (rates : PlayRates) :
    Unpaid a (a.settleEmpty period rates) where
  users := rfl
  shares := rfl
  bigRewards := rfl
  cursor := rfl
  settled q hq := by
    refine (Table.any_set a.blocks rfl q).trans ?_
    rw [State.settled] at hq
    simp [hq]

theorem settleBlock_minted (h : a.settleBlock v period reward rates = some a') :
    Minted a a' period reward rates v.roll := by
  unfold State.settleBlock at h
  split at h
  · cases h
  · rename_i hnew
    obtain ⟨_, husers, rfl⟩ := Option.map_eq_some_iff.mp h
    exact ⟨Bool.not_eq_true _ ▸ hnew, rfl, rfl, rfl, Table.any_set _ rfl, husers⟩

/-- What a settlement may do. -/
theorem settle_cases (a : State) (v : Answer) (period : Hour) (reward : Nat) (rates : PlayRates) :
    Unpaid a ((a.settle v period reward rates).getD a) ∨
      Minted a ((a.settle v period reward rates).getD a) period reward rates v.roll := by
  unfold State.settle
  split
  · exact .inl (.refl a)
  · split
    · exact .inl (settleEmpty_unpaid a period rates)
    · cases hblock : a.settleBlock v period reward rates with
      | none => exact .inl (.refl a)
      | some => exact .inr (settleBlock_minted hblock)

theorem sharesOf_period : ∀ s ∈ sharesOf period reward rates, s.period = period := by
  intro s hs
  obtain ⟨p, -, rfl⟩ := List.mem_map.mp (List.mem_of_mem_filter hs)
  rfl

theorem bigRewardsOf_period : ∀ b ∈ bigRewardsOf roll period reward rates, b.period = period := by
  intro b hb
  obtain ⟨_, -, rfl⟩ := Option.map_eq_some_iff.mp (Option.mem_toList.mp hb)
  rfl

theorem Minted.mem_credits (h : Minted a a' period reward rates roll) {p : Hour × Nat}
    (hp : p ∈ a'.credits) : p.1 = period ∨ p ∈ a.credits := by
  unfold State.credits at hp
  rw [h.shares, h.bigRewards, List.map_append, List.map_append] at hp
  simp only [List.mem_append] at hp
  rcases hp with (hnew | hold) | (hnew | hold)
  · obtain ⟨s, hs, rfl⟩ := List.mem_map.mp hnew
    exact .inl (sharesOf_period s hs)
  · exact .inr (List.mem_append_left _ hold)
  · obtain ⟨b, hb, rfl⟩ := List.mem_map.mp hnew
    exact .inl (bigRewardsOf_period b hb)
  · exact .inr (List.mem_append_right _ hold)

theorem Minted.minted (h : Minted a a' period reward rates roll) : a'.minted = a.minted +
    (weight EngineBlockShare.shareScad (sharesOf period reward rates) +
      weight BigReward.rewardScad (bigRewardsOf roll period reward rates)) := by
  rw [minted_eq, minted_eq, h.shares, h.bigRewards, weight_append, weight_append]
  omega

/-- Rows put in front of others, of another hour or where there were none. -/
theorem filter_append_period {α : Type} (key : α → Hour) {new old : List α}
    (hnew : ∀ x ∈ new, key x = period) (hold : ∀ x ∈ old, key x ≠ period) (q : Hour) :
    (new ++ old).filter (key · = q) = if q = period then new else old.filter (key · = q) := by
  rw [List.filter_append]
  split
  · rename_i hq
    subst hq
    rw [List.filter_eq_self.mpr (by simpa using hnew),
      List.filter_eq_nil_iff.mpr (by simpa using hold), List.append_nil]
  · rename_i hq
    have hnone : new.filter (key · = q) = [] := by
      refine List.filter_eq_nil_iff.mpr ?_
      intro x hx
      simp [hnew x hx, Ne.symm hq]
    rw [hnone, List.nil_append]

theorem Untouched.mined (hm : Mined a) (h : Untouched a a') : Mined a' := by
  have hcredits : a'.credits = a.credits := by
    rw [State.credits, State.credits, h.shares, h.bigRewards]
  exact
    { cursor := by rw [h.cursor, hm.cursor, State.minted, State.minted, hcredits]
      settled := fun p hp => h.settled p.1 (hm.settled p (hcredits ▸ hp))
      blocks := fun q => by
        rw [MinedOnce, h.shares, h.bigRewards]
        exact hm.blocks q }

/-- The rows there are belong to other hours than one that is open. -/
theorem Mined.rows_ne (hm : Mined a) (hopen : a.settled period = false) :
    (∀ s ∈ a.shares, s.period ≠ period) ∧ ∀ b ∈ a.bigRewards, b.period ≠ period := by
  have hnone : ∀ p ∈ a.credits, p.1 ≠ period := by
    rintro p hp rfl
    have hset := hm.settled p hp
    rw [hopen] at hset
    cases hset
  refine ⟨fun s hs => ?_, fun b hb => ?_⟩
  · exact hnone (s.period, s.shareScad) (List.mem_append_left _ (List.mem_map.mpr ⟨s, hs, rfl⟩))
  · exact hnone (b.period, b.rewardScad)
      (List.mem_append_right _ (List.mem_map.mpr ⟨b, hb, rfl⟩))

theorem Minted.mined (hm : Mined a) (hreward : reward ≤ subsidy period)
    (h : Minted a a' period reward rates roll) : Mined a' where
  cursor := by rw [h.cursor, h.minted, hm.cursor]
  settled := by
    intro p hp
    rw [h.settled]
    rcases h.mem_credits hp with rfl | hold
    · simp
    · simp [hm.settled p hold]
  blocks := by
    intro q
    obtain ⟨hshares, hbig⟩ := hm.rows_ne h.new
    rw [MinedOnce, h.shares, h.bigRewards,
      filter_append_period EngineBlockShare.period sharesOf_period hshares,
      filter_append_period BigReward.period bigRewardsOf_period hbig]
    split
    · rename_i hq
      subst hq
      exact ⟨roll, reward, rates, hreward, rfl, rfl⟩
    · exact hm.blocks q

/-! ## Runs -/

/-- A run is never to settle more than the subsidy of its hour. -/
def Call.Capped : Call → Prop
  | .wagers period reward => reward ≤ subsidy period
  | .findStakers period reward _ => reward ≤ subsidy period
  | .settle period reward _ => reward ≤ subsidy period
  | _ => True

/-- What a step of a call does to the rows. -/
theorem step_cases {call : Call} {r : Option Call} (h : service.step a v call = some (a', r)) :
    Untouched a a' ∨ ∃ period reward rates, call = .settle period reward rates ∧
      Minted a a' period reward rates v.roll := by
  cases call with
  | settle period reward rates =>
    cases h
    exact (settle_cases a v period reward rates).imp Unpaid.toUntouched fun hminted =>
      ⟨period, reward, rates, rfl, hminted⟩
  | mineBlock =>
    simp only [service, Call.step, Option.some.injEq] at h
    split at h
    · cases h
      exact .inl (.refl a)
    · cases h
      exact .inl (.refl a)
  | readEmission | wagers | findStakers =>
    cases h
    exact .inl (.refl a)
  | writeUser | tick =>
    cases h
    exact .inl ⟨rfl, rfl, rfl, fun _ h => h⟩

theorem step_capped {call call' : Call} (hc : call.Capped)
    (h : service.step a v call = some (a', some call')) : call'.Capped := by
  cases call with
  | mineBlock =>
    simp only [service, Call.step, Option.some.injEq] at h
    split at h
    · cases h
    · cases h
      trivial
  | readEmission period =>
    cases h
    exact blockRewardAt_le period a.totalEmittedScad
  | wagers | findStakers =>
    cases h
    exact hc
  | settle | writeUser | tick => cases h

def emissionProtocol : Protocol service where
  Inv := Mined
  Holds _ call := call.Capped
  starts _ h := by
    rename_i call _
    cases call <;> trivial
  keeps := by
    intro a v call a' r hm hc h
    rcases step_cases h with huntouched | ⟨period, reward, rates, rfl, hminted⟩
    · exact huntouched.mined hm
    · exact hminted.mined hm hc
  goes _ hc h := step_capped hc h
  stable _ _ _ h := h

/-- A settlement that mints finds the total as it was read, as far as the
reward tells, or no hour before the genesis is mined. -/
def Covered (a : State) (_ : Answer) : Call → Prop
  | .settle period reward _ => a.settled period ∨
      reward = blockRewardAt (period * HOUR_MS) a.totalEmittedScad ∨
      genesisHour ≤ period ∧ ∀ p ∈ a.credits, genesisHour ≤ p.1
  | _ => True

instance decidableCovered (a : State) (v : Answer) : ∀ call, Decidable (Covered a v call)
  | .settle _ _ _ => inferInstanceAs (Decidable (_ ∨ _ ∨ _))
  | .mineBlock => .isTrue trivial
  | .readEmission _ => .isTrue trivial
  | .wagers _ _ => .isTrue trivial
  | .findStakers _ _ _ => .isTrue trivial
  | .writeUser _ _ => .isTrue trivial
  | .tick _ => .isTrue trivial

theorem Minted.pool_le (hm : Mined a) (hreward : reward ≤ subsidy period)
    (h : Minted a a' period reward rates roll)
    (hpool : a.minted ≤ SCAD.P2E_POOL_BASE)
    (hcovered : reward = blockRewardAt (period * HOUR_MS) a.totalEmittedScad ∨
      genesisHour ≤ period ∧ ∀ p ∈ a.credits, genesisHour ≤ p.1) :
    a'.minted ≤ SCAD.P2E_POOL_BASE := by
  rcases hcovered with hread | ⟨hsince, hold⟩
  · have hle := block_le roll period reward rates
    -- the clamp leaves what the pool still has
    have hclamp : reward ≤ SCAD.P2E_POOL_BASE - a.totalEmittedScad :=
      hread ▸ Nat.min_le_right _ _
    have hcursor := hm.cursor
    rw [h.minted]
    omega
  · refine minted_le_of_since (h.mined hm hreward).blocks ?_
    intro p hp
    rcases h.mem_credits hp with rfl | hp'
    · exact hsince
    · exact hold p hp'

theorem pool_step {s s' : System State Call} {e : Event Call Answer}
    (hs : emissionProtocol.Sound s) (hpool : s.data.minted ≤ SCAD.P2E_POOL_BASE)
    (hok : Allowed Covered s e) (h : service.next s e = some s') :
    s'.data.minted ≤ SCAD.P2E_POOL_BASE := by
  cases e with
  | start =>
    obtain ⟨-, -, rfl⟩ := next_start h
    exact hpool
  | kill =>
    cases h
    exact hpool
  | run id =>
    obtain ⟨_, data, r, hcall, hstep, rfl⟩ := next_run h
    rcases step_cases hstep with huntouched | ⟨_, _, _, rfl, hminted⟩
    · have hkept : data.minted = s.data.minted := by
        rw [minted_eq, minted_eq, huntouched.shares, huntouched.bigRewards]
      exact hkept.trans_le hpool
    · refine hminted.pool_le hs.inv (hs.holds id _ hcall) hpool ?_
      rcases hok _ hcall with hsettled | hcovered
      · rw [hminted.new] at hsettled
        cases hsettled
      · exact hcovered

/-- In every run whose settlements are covered, the emission stays within the
pool, and every block is mined at most once. -/
theorem emission_bounded {es : List (Event Call Answer)} {s : System State Call}
    (hrun : run service.next (.boot .initial) es = some s)
    (hok : Along service.next (Allowed Covered) (.boot .initial) es) : Bounded s.data := by
  have hinit : emissionProtocol.Inv .initial := mined_initial
  have hsound := emissionProtocol.sound hinit hrun
  refine ⟨?_, hsound.inv.blocks⟩
  exact (run_induct (P := fun s => emissionProtocol.Sound s ∧
      s.data.minted ≤ SCAD.P2E_POOL_BASE)
    (fun _ _ _ hok hs h => ⟨Protocol.Sound.next _ hs.1 h, pool_step hs.1 hs.2 hok h⟩)
    ⟨Protocol.Sound.boot _ hinit, Nat.zero_le _⟩ hok hrun).2

/-! ## Two runs for what is left -/

namespace Sample

/-- User 1 is the only one that wagers, and the only one there is. -/
def answer : Answer := ⟨[(1, 1)], 0, false⟩

/-- 70082 hours before the genesis. -/
def base : Hour := genesisHour - 70082

/-- `mineBlock()` just after the hour. -/
def mineHour (hour : Hour) : List (Event Call Answer) :=
  .start 0 (.tick ((hour + 1) * HOUR_MS)) :: List.replicate 1 (.run 0 answer) ++
    .start 0 .mineBlock :: List.replicate 5 (.run 0 answer)

/-- The hours up to the `n`-th, one after the other. -/
def mineHours : Nat → List (Event Call Answer)
  | 0 => .start 0 (.writeUser 1 ⟨0, 0⟩) :: List.replicate 1 (.run 0 answer)
  | n + 1 => mineHours n ++ mineHour (base + n)

/-- Only user 1 is there, and the hours from `next` on are open. -/
structure Ready (a : State) (next : Hour) : Prop where
  now : a.now ≤ (next + 1) * HOUR_MS
  users : ∃ balance, a.users.entries = [(1, ⟨0, balance⟩)]
  opened : ∀ q, next ≤ q → a.settled q = false

theorem hour_completed (hour : Hour) : lastCompletedHourPeriod ((hour + 1) * HOUR_MS) = hour := by
  rw [lastCompletedHour_eq, periodForHour, Nat.mul_div_cancel _ (by decide)]
  rfl

/-- What the run finds out about the players. -/
theorem rates_eq {users : Table UserId Account} {balance : Nat}
    (h : users.entries = [(1, ⟨0, balance⟩)]) (hwagers : a.users = users) :
    (users.filter fun _ user => 0 < user.scadiumStaked).entries.foldl addStake
      (activeRates (a.wagersOf answer)) = [(1, 1)] := by
  subst hwagers
  have hget : a.users.get 1 = some ⟨0, balance⟩ := by
    rw [Table.get, h]
    rfl
  have hwagers : a.wagersOf answer = [(1, 1)] := by
    simp [State.wagersOf, answer, hget]
  have hstakers : (a.users.filter fun _ user => 0 < user.scadiumStaked).entries = [] := by
    simp [Table.filter, h]
  rw [hwagers, hstakers]
  decide

/-- Crediting user 1 leaves the only account in place. -/
theorem creditAll_one {users : Table UserId Account} {balance : Nat}
    (h : users.entries = [(1, ⟨0, balance⟩)]) (credits : List Nat) :
    ∃ users', State.creditAll users (credits.map fun n => (1, n)) = some users' ∧
      ∃ balance', users'.entries = [(1, ⟨0, balance'⟩)] := by
  induction credits generalizing users balance with
  | nil => exact ⟨users, rfl, balance, h⟩
  | cons n credits ih =>
    have hget : users.get 1 = some ⟨0, balance⟩ := by
      rw [Table.get, h]
      rfl
    have hset : (users.set 1 ⟨0, balance + n⟩).entries = [(1, ⟨0, balance + n⟩)] := by
      simp [Table.set, h, insertWith]
    obtain ⟨users', hcredits, hafter⟩ := ih hset
    refine ⟨users', ?_, hafter⟩
    simpa [State.creditAll, Table.updateAll, hget] using hcredits

/-- A block of user 1 mints all of its reward. -/
theorem block_eq (hour : Hour) (reward : Nat) :
    weight EngineBlockShare.shareScad (sharesOf hour reward [(1, 1)]) +
      weight BigReward.rewardScad (bigRewardsOf 0 hour reward [(1, 1)]) = reward := by
  have hordered : ordered [(1, 1)] = [(1, 1)] := rfl
  have hle := bigReward_le reward
  rw [weight_sharesOf, hordered, bigRewardsOf, winnerId, hordered]
  split
  · simp [totalPlayRate, weightedWinnerIndex, weightedWinnerIndex.walk]
    omega
  · simp [totalPlayRate]
    omega

theorem credits_one (hour : Hour) (reward : Nat) : ∃ credits : List Nat,
    creditsOf 0 hour reward [(1, 1)] = credits.map fun n => (1, n) := by
  refine ⟨(creditsOf 0 hour reward [(1, 1)]).map Prod.snd, ?_⟩
  have hone : ∀ c ∈ creditsOf 0 hour reward [(1, 1)], (1, c.2) = c := by
    intro c hc
    rcases List.mem_append.mp hc with hshare | hbig
    · obtain ⟨s, hs, rfl⟩ := List.mem_map.mp hshare
      obtain ⟨p, hp, rfl⟩ := List.mem_map.mp (List.mem_of_mem_filter hs)
      rw [List.mem_singleton.mp ((List.mem_insertionSort _).mp hp)]
    · obtain ⟨b, hb, rfl⟩ := List.mem_map.mp hbig
      obtain ⟨_, hwinner, rfl⟩ := Option.map_eq_some_iff.mp (Option.mem_toList.mp hb)
      rw [winnerId] at hwinner
      split at hwinner
      · obtain ⟨p, hp, rfl⟩ := Option.map_eq_some_iff.mp hwinner
        rw [List.mem_singleton.mp ((List.mem_insertionSort _).mp (List.mem_of_getElem? hp))]
      · cases hwinner
  rw [List.map_map]
  exact ((List.map_congr_left hone).trans (List.map_id _)).symm

/-- The transaction of such a block. -/
theorem settle_one {balance reward : Nat} {hour : Hour}
    (husers : a.users.entries = [(1, ⟨0, balance⟩)]) (hopen : a.settled hour = false)
    (hreward : 0 < reward) : ∃ a', a.settle answer hour reward [(1, 1)] = some a' ∧
      Minted a a' hour reward [(1, 1)] 0 ∧ a'.now = a.now ∧
      ∃ balance', a'.users.entries = [(1, ⟨0, balance'⟩)] := by
  obtain ⟨credits, hcredits⟩ := credits_one hour reward
  obtain ⟨users', husers', hafter⟩ := creditAll_one husers credits
  obtain ⟨a', ha', hnow, rfl⟩ : ∃ a', a.settleBlock answer hour reward [(1, 1)] = some a' ∧
      a'.now = a.now ∧ a'.users = users' := by
    simp only [State.settleBlock, hopen, Bool.false_eq_true, if_false,
      show answer.roll = 0 from rfl, hcredits, husers', Option.map_some]
    exact ⟨_, rfl, rfl, rfl⟩
  have hsome : a.settle answer hour reward [(1, 1)] = some a' := by
    have htotal : totalPlayRate [(1, 1)] = 1 := rfl
    rw [State.settle, if_neg (by simp [answer]), if_neg (by simp [htotal, hreward.ne'])]
    exact ha'
  exact ⟨a', hsome, settleBlock_minted ha', hnow, hafter⟩

/-- The rest of a run that has read what was emitted. -/
theorem wagers_one {balance reward : Nat} {hour : Hour}
    (husers : a.users.entries = [(1, ⟨0, balance⟩)]) (hopen : a.settled hour = false)
    (hreward : 0 < reward) : ∃ a', service.finish answer 3 a (.wagers hour reward) = some a' ∧
      Minted a a' hour reward [(1, 1)] 0 ∧ a'.now = a.now ∧
      ∃ balance', a'.users.entries = [(1, ⟨0, balance'⟩)] := by
  obtain ⟨a', hsettle, hminted⟩ := settle_one husers hopen hreward
  refine ⟨a', ?_, hminted⟩
  simp only [Service.finish, service, Call.step, rates_eq husers rfl, hsettle, Option.getD_some]
  rfl

/-- A run alone mines the hour that just ended. -/
theorem mineBlock_one {reward : Nat} {hour : Hour} (h : Ready a hour)
    (hnow : a.now = (hour + 1) * HOUR_MS)
    (hreward : blockRewardAt (hour * HOUR_MS) a.totalEmittedScad = reward) (hpos : 0 < reward) :
    ∃ a', service.finish answer 5 a .mineBlock = some a' ∧ Ready a' (hour + 1) ∧
      Minted a a' hour reward [(1, 1)] 0 := by
  obtain ⟨_, husers⟩ := h.users
  have hopen := h.opened hour (le_refl _)
  obtain ⟨a', hrest, hminted, hnow', husers'⟩ := wagers_one husers hopen hpos
  refine ⟨a', ?_, ⟨?_, husers', ?_⟩, hminted⟩
  · rw [Service.finish]
    simp only [service, Call.step, hnow, hour_completed, hopen, Bool.false_eq_true, if_false]
    rw [Service.finish]
    simp only [hreward]
    exact hrest
  · rw [hnow', hnow]
    exact Nat.mul_le_mul_right _ (Nat.le_succ _)
  · intro q hq
    rw [hminted.settled, h.opened q (Nat.le_of_succ_le hq), decide_eq_false (Nat.ne_of_lt hq)]
    rfl

/-- The clock goes on to the end of the hour. -/
theorem tick_one {hour : Hour} (h : Ready a hour) :
    ∃ a', service.finish answer 1 a (.tick ((hour + 1) * HOUR_MS)) = some a' ∧ Ready a' hour ∧
      a'.now = (hour + 1) * HOUR_MS ∧ a'.totalEmittedScad = a.totalEmittedScad ∧
      ∀ q, a'.settled q = a.settled q := by
  have hnow : max a.now ((hour + 1) * HOUR_MS) = (hour + 1) * HOUR_MS := Nat.max_eq_right h.now
  refine ⟨_, rfl, ⟨?_, h.users, h.opened⟩, hnow, rfl, fun _ => rfl⟩
  exact hnow.le

/-- After `n` hours: nothing is in progress, and each hour minted its subsidy. -/
structure Drained (n : Nat) (s : System State Call) : Prop where
  ready : Ready s.data (base + n)
  emitted : s.data.totalEmittedScad = n * GENESIS_BLOCK_REWARD_BASE
  idle : ∀ id, s.calls.get id = none

theorem base_le {n : Nat} (hn : n ≤ 70082) : base + n ≤ genesisHour :=
  (Nat.add_le_add_left hn base).trans (by decide)

/-- The reward before the genesis: the first subsidy, or what the pool has left. -/
theorem reward_before {n : Nat} (hn : n ≤ 70082) (emitted : Nat) :
    blockRewardAt ((base + n) * HOUR_MS) emitted =
      min GENESIS_BLOCK_REWARD_BASE (SCAD.P2E_POOL_BASE - emitted) := by
  have hsubsidy : subsidy (base + n) = GENESIS_BLOCK_REWARD_BASE := by
    rw [subsidy_eq, Nat.sub_eq_zero_of_le (base_le hn)]
    decide
  show min (subsidy (base + n)) _ = _
  rw [hsubsidy]

/-- The pool is good for 70080 subsidies. -/
theorem left_of_lt {n : Nat} (hn : n < 70080) : GENESIS_BLOCK_REWARD_BASE ≤
    SCAD.P2E_POOL_BASE - n * GENESIS_BLOCK_REWARD_BASE := by
  have hpool : 70080 * GENESIS_BLOCK_REWARD_BASE ≤ SCAD.P2E_POOL_BASE := by decide
  have hmul := Nat.mul_le_mul_right GENESIS_BLOCK_REWARD_BASE (Nat.succ_le_of_lt hn)
  rw [Nat.succ_mul] at hmul
  omega

/-- An hour that is mined alone, whatever else is in progress. -/
theorem mineHour_one {s : System State Call} {hour : Hour} {reward : Nat}
    (h : Ready s.data hour) (hfree : s.calls.get 0 = none)
    (hreward : blockRewardAt (hour * HOUR_MS) s.data.totalEmittedScad = reward)
    (hpos : 0 < reward) :
    ∃ s', run service.next s (mineHour hour) = some s' ∧ Ready s'.data (hour + 1) ∧
      s'.data.totalEmittedScad = s.data.totalEmittedScad + reward ∧
      (∀ q, s'.data.settled q = (s.data.settled q || decide (hour = q))) ∧
      ∀ id, s'.calls.get id = s.calls.get id := by
  obtain ⟨a, htick, hready, hnow, hemitted, hsettled⟩ := tick_one h
  obtain ⟨t, ht, rfl, hcalls⟩ := run_whole hfree rfl htick
  obtain ⟨_, hmine, hready', hminted⟩ :=
    mineBlock_one hready hnow (hemitted ▸ hreward) hpos
  obtain ⟨s', hs', rfl, hcalls'⟩ := run_whole ((hcalls 0).trans hfree) rfl hmine
  refine ⟨s', run_append.mpr ⟨t, ht, hs'⟩, hready', ?_, ?_, ?_⟩
  · rw [hminted.cursor, block_eq, hemitted]
  · intro q
    rw [hminted.settled, hsettled]
  · intro id
    rw [hcalls', hcalls]

theorem drained_step {n : Nat} {s : System State Call} (h : Drained n s) (hn : n < 70080) :
    ∃ s', run service.next s (mineHour (base + n)) = some s' ∧ Drained (n + 1) s' := by
  have hreward : blockRewardAt ((base + n) * HOUR_MS) s.data.totalEmittedScad =
      GENESIS_BLOCK_REWARD_BASE := by
    rw [reward_before (by omega), h.emitted]
    exact Nat.min_eq_left (left_of_lt hn)
  obtain ⟨s', hs', hready, hemitted, -, hidle⟩ :=
    mineHour_one h.ready (h.idle 0) hreward (by decide)
  refine ⟨s', hs', hready, ?_, ?_⟩
  · rw [hemitted, h.emitted, Nat.succ_mul]
  · intro id
    rw [hidle, h.idle]

theorem drained_hours {n : Nat} (hn : n ≤ 70080) :
    ∃ s, run service.next (.boot .initial) (mineHours n) = some s ∧ Drained n s := by
  induction n with
  | zero =>
    have hwrite : service.finish answer 1 State.initial (.writeUser 1 ⟨0, 0⟩) =
        some { State.initial with users := Table.empty.set 1 ⟨0, 0⟩ } := rfl
    have hfree : (System.boot State.initial : System State Call).calls.get 0 = none := rfl
    obtain ⟨s, hs, hdata, hidle⟩ := run_whole hfree rfl hwrite
    refine ⟨s, hs, ⟨?_, ⟨0, ?_⟩, ?_⟩, ?_, hidle⟩
    · rw [hdata]
      exact Nat.zero_le _
    · rw [hdata]
      rfl
    · intro q _
      rw [hdata]
      rfl
    · rw [hdata, Nat.zero_mul]
      rfl
  | succ n ih =>
    obtain ⟨t, ht, hdrained⟩ := ih (by omega)
    obtain ⟨s, hs, hdrained'⟩ := drained_step hdrained (by omega)
    exact ⟨s, run_append.mpr ⟨t, ht, hs⟩, hdrained'⟩

/-- A run reads what is left of the pool and is overtaken by the next hour's. -/
def overlap (hour : Hour) : List (Event Call Answer) :=
  .start 0 (.tick ((hour + 1) * HOUR_MS)) :: List.replicate 1 (.run 0 answer) ++
    .start 1 .mineBlock :: List.replicate 2 (.run 1 answer) ++ mineHour (hour + 1) ++
    List.replicate 3 (.run 1 answer)

/-- A run up to its read of what was emitted. -/
theorem reads_one {s : System State Call} {hour : Hour} {reward : Nat} (h : Ready s.data hour)
    (hfree : s.calls.get 1 = none) (hnow : s.data.now = (hour + 1) * HOUR_MS)
    (hreward : blockRewardAt (hour * HOUR_MS) s.data.totalEmittedScad = reward) :
    ∃ s', run service.next s (.start 1 .mineBlock :: List.replicate 2 (.run 1 answer)) = some s' ∧
      s'.data = s.data ∧ s'.calls.get 1 = some (.wagers hour reward) ∧
      s'.calls.get 0 = s.calls.get 0 := by
  have hopen := h.opened hour (le_refl _)
  refine ⟨⟨s.data, ((s.calls.set 1 .mineBlock).set 1 (.readEmission hour)).set 1
    (.wagers hour reward)⟩, ?_, rfl, Table.get_set_self _, ?_⟩
  · simp only [List.replicate, run, Service.next, hfree, service, Call.isEntry, if_true,
      Table.get_set_self, Call.step, hnow, hour_completed, hopen, Bool.false_eq_true, if_false,
      Option.map_some, System.put, hreward]
  · rw [Table.get_set_ne _ (by decide), Table.get_set_ne _ (by decide),
      Table.get_set_ne _ (by decide)]

/-- Both blocks are mined. -/
theorem overlap_one {s : System State Call} {hour : Hour} {reward reward' : Nat}
    (h : Ready s.data hour) (hidle : ∀ id, s.calls.get id = none)
    (hreward : blockRewardAt (hour * HOUR_MS) s.data.totalEmittedScad = reward)
    (hreward' : blockRewardAt ((hour + 1) * HOUR_MS) s.data.totalEmittedScad = reward')
    (hpos : 0 < reward) (hpos' : 0 < reward') :
    ∃ s', run service.next s (overlap hour) = some s' ∧
      s'.data.totalEmittedScad = s.data.totalEmittedScad + reward' + reward := by
  obtain ⟨a, htick, hready, hnow, hemitted, _⟩ := tick_one h
  obtain ⟨t, ht, rfl, hcalls⟩ := run_whole (hidle 0) rfl htick
  obtain ⟨u, hu, hdata, hread, hfree⟩ := reads_one hready ((hcalls 1).trans (hidle 1)) hnow
    (hemitted ▸ hreward)
  have hnext : Ready u.data (hour + 1) := by
    rw [hdata]
    exact ⟨hnow.le.trans (Nat.mul_le_mul_right _ (Nat.le_succ _)), hready.users,
      fun q hq => hready.opened q (Nat.le_of_succ_le hq)⟩
  obtain ⟨w, hw, hready', hemitted', hsettled', hcalls'⟩ := mineHour_one hnext
    ((hfree.trans (hcalls 0)).trans (hidle 0)) (by rw [hdata, hemitted, hreward']) hpos'
  obtain ⟨_, husers⟩ := hready'.users
  have hopen : w.data.settled hour = false := by
    rw [hsettled', hdata, hready.opened hour (le_refl _), decide_eq_false (Nat.succ_ne_self hour)]
    rfl
  obtain ⟨_, hrest, hminted, -⟩ := wagers_one husers hopen hpos
  obtain ⟨s', hs', rfl, -⟩ := run_finish ((hcalls' 1).trans hread) hrest
  refine ⟨s', ?_, ?_⟩
  · exact run_append.mpr ⟨w, run_append.mpr ⟨u, run_append.mpr ⟨t, ht, hu⟩, hw⟩, hs'⟩
  · rw [hminted.cursor, block_eq, hemitted', hdata, hemitted]

end Sample

/-- The hours before the genesis count as the first era. Once they have drained
the pool but for 2240 units, two runs that overlap mint them twice. -/
theorem pool_oversubscribed : ∃ s, run service.next (.boot .initial)
      (Sample.mineHours 70080 ++ Sample.overlap (Sample.base + 70080)) = some s ∧
    s.data.minted = SCAD.P2E_POOL_BASE + 2240 := by
  obtain ⟨s₀, hs₀, hdrained⟩ := Sample.drained_hours (le_refl 70080)
  have hreward {n : Nat} (hn : n ≤ 70082) : blockRewardAt ((Sample.base + n) * HOUR_MS)
      s₀.data.totalEmittedScad = 2240 := by
    rw [Sample.reward_before hn, hdrained.emitted]
    decide
  obtain ⟨s, hs, hemitted⟩ := Sample.overlap_one hdrained.ready hdrained.idle
    (hreward (by decide)) (hreward (n := 70081) (by decide)) (by decide) (by decide)
  have hrun := run_append.mpr ⟨s₀, hs₀, hs⟩
  refine ⟨s, hrun, ?_⟩
  rw [← (emissionProtocol.sound mined_initial hrun).inv.cursor, hemitted, hdrained.emitted]
  decide

/-- One hour of one player. -/
theorem emission_bounded_hour : ∃ s,
    run service.next (.boot .initial) (Sample.mineHours 1) = some s ∧
    s.data.minted = GENESIS_BLOCK_REWARD_BASE ∧ Bounded s.data := by
  have hsome : ((run service.next (.boot .initial) (Sample.mineHours 1)).any fun s =>
      decide (s.data.minted = GENESIS_BLOCK_REWARD_BASE ∧
        Along service.next (Allowed Covered) (.boot .initial) (Sample.mineHours 1))) = true := by
    decide +kernel
  obtain ⟨s, hs, h⟩ := (Option.any_eq_true _ _).mp hsome
  obtain ⟨hminted, halong⟩ := of_decide_eq_true h
  exact ⟨s, hs, hminted, emission_bounded hs halong⟩

end Scadium.Engine.BlockMining
