/-
Scadium.Airdrop.Conservation — what goes into the pools comes out of them.

A tip checks the pool before its transaction, and a distribution reads the
total before it claims the pool. So the tips and the seeds are what was
credited, what division left over and what is in the pools not distributed
yet, exactly as long as a commit finds the pools as they were read
(`airdrop_iff`).
-/
import Scadium.Airdrop.Engine

namespace Scadium.Airdrop

open Scadium.Lib Scadium.Prisma Scadium.Queue

variable {a a' : State} {answer : Answer} {call : Call} {rest : Option Call} {period nextPeriod : Hour}
  {userId : UserId} {amountLamports total : Nat} {users : List UserId}

/-- What the pool still has to pay. -/
def AirdropPool.pending (pool : AirdropPool) : Nat := if pool.distributed then 0 else pool.contents

/-- What the shares of the event leave over. -/
def AirdropEvent.dust (e : AirdropEvent) : Nat := e.totalLamports % e.participantCount

/-- Tips and seeds are paid, dust or pending, and no tip was late. -/
structure Conserved (a : State) : Prop where
  sum : weight Tip.lamports a.tips + a.seeds =
    weight Credit.lamports a.credits + weight AirdropEvent.dust a.events +
      a.pools.sum AirdropPool.pending
  dust : ∀ e ∈ a.events, e.dust < e.participantCount
  tips : ∀ t ∈ a.tips, t.late = false

/-- Nobody is paid, so the total is rolled over. -/
def State.Rolls (a : State) (answer : Answer) (users : List UserId) : Prop :=
  (users.filter fun userId => a.stillPlay userId answer.enforced) = []

/-- A tip commits to a pool that is as distributed as the one it has read; a
pool is claimed with the total that was read, and rolls over into one that is
not distributed. -/
def Current (a : State) (answer : Answer) : Call → Prop
  | .tipCommit userId amountLamports period read =>
      (a.tipCommit answer userId amountLamports period).isSome →
        ∀ pool ∈ a.pools.get period, pool.distributed = read.distributed
  | .settlePool period total users nextPeriod =>
      (a.settlePool answer period total users nextPeriod).isSome →
        (∀ pool ∈ a.pools.get period, pool.contents = total) ∧
          (a.Rolls answer users → ∀ pool ∈ a.pools.get nextPeriod, pool.distributed = false)
  | _ => True

instance (a : State) (answer : Answer) (users : List UserId) : Decidable (a.Rolls answer users) :=
  inferInstanceAs (Decidable (_ = []))

instance (a : State) (answer : Answer) (call : Call) : Decidable (Current a answer call) :=
  match call with
  | .tipCommit userId amountLamports period read =>
      inferInstanceAs (Decidable ((a.tipCommit answer userId amountLamports period).isSome →
        ∀ pool ∈ a.pools.get period, pool.distributed = read.distributed))
  | .settlePool period total users nextPeriod =>
      inferInstanceAs (Decidable ((a.settlePool answer period total users nextPeriod).isSome →
        (∀ pool ∈ a.pools.get period, pool.contents = total) ∧
          (a.Rolls answer users → ∀ pool ∈ a.pools.get nextPeriod, pool.distributed = false)))
  | .tip .. | .tipPool .. | .distribute | .eligible .. | .claimPool .. | .poolSnapshot | .writeUser ..
  | .tick .. => .isTrue trivial

/-! ## Pools -/

/-- What goes into a pool is pending, unless the pool is distributed. -/
theorem sum_grow {t : Table Hour AirdropPool} {pool : AirdropPool} (pool' : AirdropPool) (n : Nat)
    (hget : t.get period = some pool) (hdistributed : pool'.distributed = pool.distributed)
    (hcontents : pool'.contents = pool.contents + n) :
    (t.set period pool').sum AirdropPool.pending =
      t.sum AirdropPool.pending + if pool.distributed then 0 else n := by
  have hset := t.sum_set (k := period) (a := pool') (g := AirdropPool.pending)
  have hpending : pool'.pending = pool.pending + if pool.distributed then 0 else n := by
    unfold AirdropPool.pending
    rw [hdistributed, hcontents]
    split <;> rfl
  rw [hget] at hset
  simp only [Option.map_some, Option.getD_some] at hset
  omega

theorem sum_fresh {t : Table Hour AirdropPool} (hget : t.get period = none) (baseLamports : Nat) :
    (t.set period (.fresh baseLamports)).sum AirdropPool.pending =
      t.sum AirdropPool.pending + baseLamports := by
  have hset := t.sum_set (k := period) (a := .fresh baseLamports) (g := AirdropPool.pending)
  have hpending : (AirdropPool.fresh baseLamports).pending = baseLamports := rfl
  rw [hget] at hset
  simp only [Option.map_none, Option.getD_none] at hset
  omega

/-- Pools that are not distributed only grow, and the clock goes on. -/
structure Grows (a a' : State) : Prop where
  now : a.now ≤ a'.now
  pools : ∀ h pool, a.pools.get h = some pool → ∃ pool', a'.pools.get h = some pool' ∧
    (pool'.distributed = false → pool.distributed = false ∧ pool.contents ≤ pool'.contents)

theorem Grows.of_eq (hnow : a.now ≤ a'.now) (hpools : a'.pools = a.pools) : Grows a a' where
  now := hnow
  pools _ pool hget := ⟨pool, hpools ▸ hget, fun hopen => ⟨hopen, le_rfl⟩⟩

theorem Grows.trans {b : State} (h : Grows a a') (h' : Grows a' b) : Grows a b where
  now := h.now.trans h'.now
  pools := by
    intro k pool hget
    obtain ⟨pool', hget', hopen⟩ := h.pools k pool hget
    obtain ⟨pool'', hget'', hopen'⟩ := h'.pools k pool' hget'
    refine ⟨pool'', hget'', ?_⟩
    intro hd
    obtain ⟨hd', hle'⟩ := hopen' hd
    obtain ⟨hd'', hle⟩ := hopen hd'
    exact ⟨hd'', hle.trans hle'⟩

/-- One pool is written. -/
theorem Grows.of_set {pool' : AirdropPool} (hnow : a.now ≤ a'.now)
    (hpools : a'.pools = a.pools.set period pool')
    (hpool : ∀ pool, a.pools.get period = some pool → pool'.distributed = false →
      pool.distributed = false ∧ pool.contents ≤ pool'.contents) : Grows a a' where
  now := hnow
  pools := by
    intro k pool hget
    by_cases hk : k = period
    · subst hk
      exact ⟨pool', by rw [hpools, Table.get_set_self], hpool pool hget⟩
    · refine ⟨pool, ?_, fun hopen => ⟨hopen, le_rfl⟩⟩
      rw [hpools, Table.get_set_ne _ hk, hget]

variable {create seed : Nat} {update : AirdropPool → AirdropPool}

/-- A pool that is there is updated. -/
theorem upsertPool_some {pool : AirdropPool} (h : a.pools.get period = some pool) :
    a.upsertPool period create seed update = { a with pools := a.pools.set period (update pool) } := by
  simp [State.upsertPool, h]

/-- A pool that is not is created. -/
theorem upsertPool_none (h : a.pools.get period = none) :
    a.upsertPool period create seed update =
      { a with pools := a.pools.set period (.fresh create), seeds := a.seeds + seed } := by
  simp [State.upsertPool, h]

theorem upsertPool_grows (hupdate : ∀ pool, (update pool).distributed = pool.distributed ∧
    pool.contents ≤ (update pool).contents) : Grows a (a.upsertPool period create seed update) := by
  cases hget : a.pools.get period with
  | none =>
    rw [upsertPool_none hget]
    refine .of_set le_rfl rfl ?_
    intro pool hpool
    rw [hget] at hpool
    cases hpool
  | some pool =>
    rw [upsertPool_some hget]
    refine .of_set le_rfl rfl ?_
    intro old hold hopen
    rw [hget] at hold
    cases hold
    exact ⟨(hupdate pool).1 ▸ hopen, (hupdate pool).2⟩

theorem ensureCurrentPool_grows {baseLamports : Nat} : Grows a (a.ensureCurrentPool baseLamports) :=
  upsertPool_grows fun _ => ⟨rfl, le_rfl⟩

theorem rollOver_grows {baseLamports : Nat} :
    Grows a (a.rollOver baseLamports total nextPeriod) := by
  refine upsertPool_grows fun pool => ⟨rfl, ?_⟩
  simp only [AirdropPool.contents]
  omega

/-- A seed is pending. -/
theorem Conserved.ensure {baseLamports : Nat} (h : Conserved a) :
    Conserved (a.ensureCurrentPool baseLamports) := by
  unfold State.ensureCurrentPool
  have hsum := h.sum
  cases hget : a.pools.get (periodForHour a.now) with
  | none =>
    have hfresh := sum_fresh hget baseLamports
    rw [upsertPool_none hget]
    refine ⟨?_, h.dust, h.tips⟩
    simp only
    omega
  | some pool =>
    have hsame := sum_grow pool 0 hget rfl rfl
    rw [upsertPool_some hget]
    refine ⟨?_, h.dust, h.tips⟩
    rw [ite_self] at hsame
    simp only [id]
    omega

/-! ## Commits -/

theorem tipCommit_ok (h : a.tipCommit answer userId amountLamports period = some a') :
    ∃ pool, a.pools.get period = some pool ∧ a'.now = a.now ∧ a'.events = a.events ∧
      a'.credits = a.credits ∧ a'.seeds = a.seeds ∧
      a'.pools = a.pools.set period { pool with
        tipLamports := pool.tipLamports + amountLamports
        tipsCount := pool.tipsCount + 1 } ∧
      a'.tips = ⟨userId, amountLamports, period, pool.distributed⟩ :: a.tips := by
  unfold State.tipCommit at h
  split at h
  · rename_i user pool huser hpool
    split at h
    · cases h
    · cases h
      exact ⟨pool, hpool, rfl, rfl, rfl, rfl, rfl, rfl⟩
  · cases h

/-- The pool is claimed, and its total rolled over or paid. -/
theorem settlePool_ok (h : a.settlePool answer period total users nextPeriod = some a') :
    ∃ pool, a.pools.get period = some pool ∧ pool.distributed = false ∧
      (a.Rolls answer users ∧ a' = State.rollOver
          { a with pools := a.pools.set period { pool with distributed := true } }
          answer.baseLamports total nextPeriod ∨
        ∃ payees : List UserId, payees ≠ [] ∧ ¬ a.Rolls answer users ∧ a'.now = a.now ∧
          a'.tips = a.tips ∧ a'.seeds = a.seeds ∧
          a'.pools = a.pools.set period { pool with distributed := true } ∧
          a'.events = ⟨total, payees.length⟩ :: a.events ∧
          a'.credits = payees.map (⟨·, total / payees.length⟩) ++ a.credits) := by
  unfold State.settlePool at h
  split at h
  · cases h
  · rename_i pool hpool
    split at h
    · cases h
    · rename_i hclaims
      have hopen : pool.distributed = false := by
        simp only [not_or, Bool.not_eq_true] at hclaims
        exact hclaims.2
      refine ⟨pool, hpool, hopen, ?_⟩
      simp only at h
      split at h
      · rename_i hrolls
        cases h
        exact .inl ⟨hrolls, rfl⟩
      · rename_i hpays
        obtain ⟨_, -, rfl⟩ := Option.map_eq_some_iff.mp h
        exact .inr ⟨_, hpays, hpays, rfl, rfl, rfl, rfl, rfl, rfl⟩

theorem weight_shares (share : Nat) (payees : List UserId) :
    weight Credit.lamports (payees.map (⟨·, share⟩)) = payees.length * share := by
  induction payees with
  | nil => simp
  | cons userId payees ih =>
    simp only [List.map_cons, weight_cons, List.length_cons, Nat.succ_mul, ih]
    omega

/-- A tip keeps the sum exactly if the pool is not distributed. -/
theorem conserved_tip (h : Conserved a)
    (htip : a.tipCommit answer userId amountLamports period = some a') :
    Conserved a' ↔ ∀ pool ∈ a.pools.get period, pool.distributed = false := by
  obtain ⟨pool, hpool, -, hevents, hcredits, hseeds, hpools, htips⟩ := tipCommit_ok htip
  rw [hpool]
  constructor
  · rintro h' _ ⟨⟩
    exact h'.tips _ (htips ▸ List.mem_cons_self ..)
  · intro hcurrent
    have hopen := hcurrent pool rfl
    refine ⟨?_, hevents ▸ h.dust, ?_⟩
    · have hadds : (if pool.distributed then 0 else amountLamports) = amountLamports := by
        simp [hopen]
      have hgrow := sum_grow { pool with
        tipLamports := pool.tipLamports + amountLamports
        tipsCount := pool.tipsCount + 1 } amountLamports hpool rfl (Nat.add_assoc ..).symm
      rw [← hpools, hadds] at hgrow
      have hsum := h.sum
      rw [hevents, hcredits, hseeds, htips, weight_cons]
      simp only
      omega
    · rw [htips]
      intro t ht
      rcases List.mem_cons.mp ht with rfl | ht
      · exact hopen
      · exact h.tips t ht

/-- What claiming the pool takes out of the sum. -/
theorem pending_claim {pool : AirdropPool} (hpool : a.pools.get period = some pool)
    (hopen : pool.distributed = false) :
    (a.pools.set period { pool with distributed := true }).sum AirdropPool.pending + pool.contents =
      a.pools.sum AirdropPool.pending := by
  have hset := a.pools.sum_set (k := period) (g := AirdropPool.pending)
    (a := { pool with distributed := true })
  rw [hpool] at hset
  simpa [AirdropPool.pending, hopen] using hset

/-- A pool that is paid keeps the sum exactly if it holds what was read. -/
theorem conserved_pay (h : Conserved a) {pool : AirdropPool} {payees : List UserId}
    (hpool : a.pools.get period = some pool) (hopen : pool.distributed = false)
    (hpayees : payees ≠ []) (htips : a'.tips = a.tips) (hseeds : a'.seeds = a.seeds)
    (hpools : a'.pools = a.pools.set period { pool with distributed := true })
    (hevents : a'.events = ⟨total, payees.length⟩ :: a.events)
    (hcredits : a'.credits = payees.map (⟨·, total / payees.length⟩) ++ a.credits) :
    Conserved a' ↔ pool.contents = total := by
  have hclaim := pending_claim hpool hopen
  have hsum := h.sum
  have hsplit : payees.length * (total / payees.length) + total % payees.length = total :=
    Nat.div_add_mod _ _
  have hcredited : weight Credit.lamports a'.credits + weight AirdropEvent.dust a'.events =
      total + (weight Credit.lamports a.credits + weight AirdropEvent.dust a.events) := by
    rw [hcredits, hevents, weight_append, weight_shares, weight_cons, AirdropEvent.dust]
    simp only
    omega
  constructor
  · intro h'
    have hsum' := h'.sum
    rw [hcredited, hpools, htips, hseeds] at hsum'
    omega
  · intro heq
    refine ⟨?_, ?_, htips ▸ h.tips⟩
    · rw [hcredited, hpools, htips, hseeds]
      omega
    · rw [hevents]
      intro e he
      rcases List.mem_cons.mp he with rfl | he
      · exact Nat.mod_lt _ (List.length_pos_iff.mpr hpayees)
      · exact h.dust e he

/-- A pool that is rolled over keeps the sum exactly if it holds what was
read and the next one is not distributed. -/
theorem conserved_roll (h : Conserved a) {pool : AirdropPool} {baseLamports : Nat}
    (hpool : a.pools.get period = some pool) (hopen : pool.distributed = false)
    (hnext : nextPeriod ≠ period) (hpos : 0 < pool.contents) :
    Conserved (State.rollOver
        { a with pools := a.pools.set period { pool with distributed := true } }
        baseLamports total nextPeriod) ↔
      pool.contents = total ∧ ∀ next ∈ a.pools.get nextPeriod, next.distributed = false := by
  have hclaim := pending_claim hpool hopen
  have hsum := h.sum
  unfold State.rollOver
  cases hget : a.pools.get nextPeriod with
  | none =>
    have hkeep : (a.pools.set period { pool with distributed := true }).get nextPeriod = none :=
      (a.pools.get_set_ne hnext).trans hget
    have hfresh := sum_fresh hkeep (baseLamports + total)
    rw [upsertPool_none hkeep]
    constructor
    · intro h'
      have hsum' := h'.sum
      simp only at hsum'
      exact ⟨by omega, by simp⟩
    · rintro ⟨heq, -⟩
      refine ⟨?_, h.dust, h.tips⟩
      simp only
      omega
  | some next =>
    have hkeep : (a.pools.set period { pool with distributed := true }).get nextPeriod = some next :=
      (a.pools.get_set_ne hnext).trans hget
    have hupdate := sum_grow { next with baseLamports := next.baseLamports + total } total hkeep rfl
      (Nat.add_right_comm ..)
    rw [upsertPool_some hkeep]
    cases hd : next.distributed with
    | true =>
      rw [hd, if_pos rfl] at hupdate
      constructor
      · intro h'
        have hsum' := h'.sum
        simp only at hsum'
        omega
      · rintro ⟨-, hcurrent⟩
        rw [hcurrent next rfl] at hd
        cases hd
    | false =>
      rw [hd, if_neg Bool.false_ne_true] at hupdate
      constructor
      · intro h'
        have hsum' := h'.sum
        simp only at hsum'
        refine ⟨by omega, ?_⟩
        rintro _ ⟨⟩
        exact hd
      · rintro ⟨_, -⟩
        refine ⟨?_, h.dust, h.tips⟩
        simp only
        omega

/-! ## Steps -/

/-- Pools and payments are as before. -/
structure Same (a a' : State) : Prop where
  now : a.now ≤ a'.now
  pools : a'.pools = a.pools
  tips : a'.tips = a.tips
  events : a'.events = a.events
  credits : a'.credits = a.credits
  seeds : a'.seeds = a.seeds

theorem Same.refl (a : State) : Same a a := ⟨le_rfl, rfl, rfl, rfl, rfl, rfl⟩

theorem Conserved.same (h : Conserved a) (hsame : Same a a') : Conserved a' where
  sum := by rw [hsame.tips, hsame.seeds, hsame.credits, hsame.events, hsame.pools]; exact h.sum
  dust := hsame.events ▸ h.dust
  tips := hsame.tips ▸ h.tips

/-- What a step does to the pools. -/
theorem step_cases (hstep : call.step a answer = (a', rest)) :
    (Same a a' ∨ a' = a.ensureCurrentPool answer.baseLamports) ∧ Current a answer call ∨
    (∃ userId amountLamports period read, call = .tipCommit userId amountLamports period read ∧
      a.tipCommit answer userId amountLamports period = some a') ∨
    ∃ period total users nextPeriod, call = .settlePool period total users nextPeriod ∧
      a.settlePool answer period total users nextPeriod = some a' := by
  have hread : ∀ {r : Option Call}, (a, r) = (a', rest) →
      Same a a' ∨ a' = a.ensureCurrentPool answer.baseLamports := by
    intro r heq
    cases heq
    exact .inl (.refl a)
  cases call with
  | tip =>
    simp only [Call.step] at hstep
    split at hstep
    · exact .inl ⟨hread hstep, trivial⟩
    · exact .inl ⟨hread hstep, trivial⟩
  | tipPool =>
    simp only [Call.step] at hstep
    split at hstep
    · split at hstep
      all_goals
        cases hstep
        exact .inl ⟨.inr rfl, trivial⟩
    · cases hstep
      exact .inl ⟨.inr rfl, trivial⟩
  | tipCommit userId amountLamports period read =>
    simp only [Call.step] at hstep
    split at hstep
    · rename_i a₁ htip
      cases hstep
      exact .inr (.inl ⟨userId, amountLamports, period, read, rfl, htip⟩)
    · rename_i hnone
      refine .inl ⟨hread hstep, ?_⟩
      intro hsome
      rw [hnone] at hsome
      cases hsome
  | distribute =>
    simp only [Call.step] at hstep
    split at hstep
    · exact .inl ⟨hread hstep, trivial⟩
    · split at hstep
      · exact .inl ⟨hread hstep, trivial⟩
      · exact .inl ⟨hread hstep, trivial⟩
  | settlePool period total users nextPeriod =>
    simp only [Call.step] at hstep
    cases hsettle : a.settlePool answer period total users nextPeriod with
    | none =>
      rw [hsettle] at hstep
      refine .inl ⟨hread hstep, ?_⟩
      intro hsome
      rw [hsettle] at hsome
      cases hsome
    | some =>
      rw [hsettle] at hstep
      cases hstep
      exact .inr (.inr ⟨period, total, users, nextPeriod, rfl, hsettle⟩)
  | eligible period total | claimPool period total users => exact .inl ⟨hread hstep, trivial⟩
  | poolSnapshot =>
    cases hstep
    exact .inl ⟨.inr rfl, trivial⟩
  | writeUser =>
    cases hstep
    exact .inl ⟨.inl ⟨le_rfl, rfl, rfl, rfl, rfl, rfl⟩, trivial⟩
  | tick =>
    cases hstep
    exact .inl ⟨.inl ⟨le_max_left .., rfl, rfl, rfl, rfl, rfl⟩, trivial⟩

theorem step_grows (hstep : call.step a answer = (a', rest)) : Grows a a' := by
  rcases step_cases hstep with ⟨hsame | rfl, -⟩ | ⟨_, _, period, _, -, htip⟩ |
    ⟨period, total, users, nextPeriod, -, hsettle⟩
  · exact .of_eq hsame.now hsame.pools
  · exact ensureCurrentPool_grows
  · obtain ⟨pool, hpool, hnow, -, -, -, hpools, -⟩ := tipCommit_ok htip
    refine .of_set hnow.ge hpools ?_
    intro old hold hopen
    rw [hpool] at hold
    cases hold
    refine ⟨hopen, ?_⟩
    simp only [AirdropPool.contents]
    omega
  · obtain ⟨pool, _, -, ⟨-, rfl⟩ | ⟨_, -, -, hnow, -, -, hpools, -⟩⟩ :=
      settlePool_ok hsettle
    · have hclaimed : Grows a
          { a with pools := a.pools.set period { pool with distributed := true } } :=
        .of_set le_rfl rfl nofun
      exact hclaimed.trans rollOver_grows
    · exact .of_set hnow.ge hpools nofun

/-- What a distribution has read: while the pool is not distributed it holds
no less. -/
structure Seen (a : State) (period : Hour) (total : Nat) : Prop where
  pos : 0 < total
  pool : ∃ pool, a.pools.get period = some pool ∧ (pool.distributed = false → total ≤ pool.contents)

/-- What a call in progress has read. A tip has seen a pool that was not
distributed; a pool rolls over into a later hour. -/
def Reads (a : State) : Call → Prop
  | .tipCommit _ _ _ read => read.distributed = false
  | .eligible period total | .claimPool period total _ =>
      Seen a period total ∧ period < periodForHour a.now
  | .settlePool period total _ nextPeriod => Seen a period total ∧ period < nextPeriod
  | _ => True

theorem Seen.grows (h : Seen a period total) (hgrows : Grows a a') : Seen a' period total := by
  obtain ⟨pool, hpool, hle⟩ := h.pool
  obtain ⟨pool', hpool', hopen⟩ := hgrows.pools period pool hpool
  refine ⟨h.pos, pool', hpool', ?_⟩
  intro hd
  exact (hle (hopen hd).1).trans (hopen hd).2

theorem Reads.grows (h : Reads a call) (hgrows : Grows a a') : Reads a' call := by
  cases call with
  | eligible period total | claimPool period total users =>
    exact ⟨h.1.grows hgrows, h.2.trans_le (periodForHour_mono hgrows.now)⟩
  | settlePool => exact ⟨h.1.grows hgrows, h.2⟩
  | tipCommit => exact h
  | _ => trivial

theorem Reads.goes (hnow : HOUR_MS ≤ a.now) (h : Reads a call) {call' : Call}
    (hstep : call.step a answer = (a', some call')) : Reads a' call' := by
  cases call with
  | distribute =>
    simp only [Call.step] at hstep
    split at hstep
    · cases hstep
      trivial
    · rename_i pool hpool
      split at hstep
      · cases hstep
        trivial
      · rename_i hopen
        simp only [not_or] at hopen
        cases hstep
        have hhour : 0 < periodForHour a.now := Nat.div_pos hnow (by decide)
        refine ⟨⟨Nat.pos_of_ne_zero hopen.2, pool, hpool, fun _ => le_rfl⟩, ?_⟩
        rw [lastCompletedHour_eq]
        exact Nat.sub_lt hhour Nat.one_pos
  | eligible =>
    cases hstep
    exact h
  | claimPool =>
    cases hstep
    have hlater : a.now ≤ a.now + 3600000 - 60000 :=
      Nat.le_sub_of_add_le (Nat.add_le_add_left (by decide) _)
    exact ⟨h.1, h.2.trans_le (periodForHour_mono hlater)⟩
  | tip | tipCommit =>
    simp only [Call.step] at hstep
    split at hstep
    all_goals
      cases hstep
      try trivial
  | tipPool =>
    simp only [Call.step] at hstep
    split at hstep
    · split at hstep
      · cases hstep
      · rename_i hopen
        cases hstep
        simpa [Reads] using hopen
    · cases hstep
  | settlePool =>
    cases hstep
    trivial
  | poolSnapshot | writeUser userId user | tick now => cases hstep

def poolProtocol : Calls.Protocol service where
  Inv a := HOUR_MS ≤ a.now
  Holds := Reads
  starts := by
    intro a call _ hentry
    cases call <;> trivial
  keeps hnow _ hstep := hnow.trans (step_grows (Option.some.inj hstep)).now
  goes hnow h hstep := Reads.goes hnow h (Option.some.inj hstep)
  stable _ _ hstep h := h.grows (step_grows (Option.some.inj hstep))

/-! ## Runs -/

theorem conserved_step (hreads : Reads a call) (h : Conserved a)
    (hstep : call.step a answer = (a', rest)) : Conserved a' ↔ Current a answer call := by
  rcases step_cases hstep with ⟨hsame | rfl, hcurrent⟩ | ⟨user, lamports, period, read, rfl, htip⟩ |
    ⟨period, total, users, nextPeriod, rfl, hsettle⟩
  · exact ⟨fun _ => hcurrent, fun _ => h.same hsame⟩
  · exact ⟨fun _ => hcurrent, fun _ => h.ensure⟩
  · have hread : read.distributed = false := hreads
    have hsome : (a.tipCommit answer user lamports period).isSome = true := by rw [htip]; rfl
    rw [conserved_tip h htip]
    simp only [Current, hread]
    exact ⟨fun hopen _ => hopen, fun hcurrent => hcurrent hsome⟩
  · have hsome : (a.settlePool answer period total users nextPeriod).isSome = true := by
      rw [hsettle]
      rfl
    obtain ⟨pool, hpool, hopen, ⟨hrolls, rfl⟩ |
      ⟨_, hpayees, hpays, -, htips, hseeds, hpools, hevents, hcredits⟩⟩ := settlePool_ok hsettle
    · obtain ⟨⟨hpos, _, hpool', hle⟩, hlt⟩ := hreads
      rw [hpool] at hpool'
      cases hpool'
      refine (conserved_roll h hpool hopen hlt.ne' (hpos.trans_le (hle hopen))).trans ⟨?_, ?_⟩
      · rintro ⟨heq, hnext⟩ -
        exact ⟨fun _ hp => Option.some.inj (hpool.symm.trans hp) ▸ heq, fun _ => hnext⟩
      · intro hcurrent
        exact ⟨(hcurrent hsome).1 pool hpool, (hcurrent hsome).2 hrolls⟩
    · refine (conserved_pay h hpool hopen hpayees htips hseeds hpools hevents hcredits).trans ⟨?_, ?_⟩
      · rintro heq -
        exact ⟨fun _ hp => Option.some.inj (hpool.symm.trans hp) ▸ heq, fun hrolls => absurd hrolls hpays⟩
      · intro hcurrent
        exact (hcurrent hsome).1 pool hpool

/-- The pools are conserved, in every state of a run, exactly if no pool was
distributed between a tip's read and its commit, and every pool is claimed
with what was read and rolls over into one that is not distributed. -/
theorem airdrop_iff {es : List (Calls.Event Call Answer)} {s : Calls.System State Call}
    (hrun : run service.next (.boot .initial) es = some s) :
    Throughout service.next (.boot .initial) es (fun s => Conserved s.data) ↔
      Along service.next (Calls.Allowed Current) (.boot .initial) es := by
  refine poolProtocol.throughout_iff (φ := Conserved)
    (fun _ hreads h hstep => conserved_step hreads h (Option.some.inj hstep)) le_rfl ?_ hrun
  exact ⟨rfl, by simp [State.initial], by simp [State.initial]⟩

namespace Sample

def plain : Answer := ⟨50, true, false, [(1, 1000000), (2, 2000000)], [1, 2]⟩

/-- A call that takes the given number of steps. -/
def complete (id : Nat) (call : Call) (steps : Nat) : List (Calls.Event Call Answer) :=
  .start id call :: List.replicate steps (.run id plain)

def player : Account := ⟨none, some 0, none, 100⟩

def players : List (Calls.Event Call Answer) :=
  complete 1 (.writeUser 1 player) 1 ++ complete 1 (.writeUser 2 player) 1

/-- A tip, and the distribution in the next hour. -/
def distributed : List (Calls.Event Call Answer) :=
  players ++ complete 1 (.tip 1 7) 4 ++ complete 1 (.tick (2 * HOUR_MS)) 1 ++
    complete 1 .distribute 5

/-- There is a run in each hour; the tip has checked the pool when the first
one ends. -/
def straddling : List (Calls.Event Call Answer) :=
  players ++ complete 1 .distribute 2 ++ complete 2 (.tip 1 7) 2 ++
    complete 1 (.tick (2 * HOUR_MS)) 1 ++ complete 1 .distribute 5 ++ [.run 2 plain]

end Sample

theorem airdrop_iff_sample : ∃ s, run service.next (.boot .initial) Sample.distributed = some s ∧
    s.data.events = [⟨57, 2⟩] ∧ s.data.credits = [⟨1, 28⟩, ⟨2, 28⟩] ∧ Conserved s.data := by
  obtain ⟨s, hs, hevents, hcredits⟩ : ∃ s,
      run service.next (.boot .initial) Sample.distributed = some s ∧ s.data.events = [⟨57, 2⟩] ∧
      s.data.credits = [⟨1, 28⟩, ⟨2, 28⟩] := by decide +kernel
  refine ⟨s, hs, hevents, hcredits, ?_⟩
  exact (airdrop_iff hs).mpr (by decide +kernel) Sample.distributed [] s (List.append_nil _).symm hs

/-- The tip is added to the pool that was just paid out, and is gone. -/
theorem tip_lost : ∃ s, run service.next (.boot .initial) Sample.straddling = some s ∧
    s.data.tips = [⟨1, 7, 1, true⟩] ∧ s.data.events = [⟨50, 2⟩] ∧
      s.data.credits = [⟨1, 25⟩, ⟨2, 25⟩] ∧ ¬ Conserved s.data := by
  obtain ⟨s, hs, htips, hevents, hcredits⟩ : ∃ s,
      run service.next (.boot .initial) Sample.straddling = some s ∧
      s.data.tips = [⟨1, 7, 1, true⟩] ∧ s.data.events = [⟨50, 2⟩] ∧
      s.data.credits = [⟨1, 25⟩, ⟨2, 25⟩] := by decide +kernel
  refine ⟨s, hs, htips, hevents, hcredits, ?_⟩
  intro h
  have hlate := h.tips ⟨1, 7, 1, true⟩ (htips ▸ List.mem_cons_self ..)
  cases hlate

end Scadium.Airdrop
