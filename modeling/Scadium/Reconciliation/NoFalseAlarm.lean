/-
Scadium.Reconciliation.NoFalseAlarm — when the checks raise no alarm.

Three of the checks take the latest row of a balance by `createdAt` and a
random `id`. A transaction that writes two rows within one millisecond may
leave the first of them latest; and a claim of earned $SCAD, like the reset
of a demo bot, moves a balance without a row. In a run without such steps
(`ok`) every committed state is consistent, so that no check reports
anything: `no_false_alarm`.

The invariant `Inv` says of the row that was written last what `Consistent` says
of the latest, and that the two are the same.
-/
import Scadium.Reconciliation.Balanced
import Scadium.Vault.Solvency

namespace Scadium.Reconciliation

open Scadium.Lib Scadium.Prisma Scadium.Prisma.Committed
open Scadium.Vault (VaultPool VaultPosition PoolId PositionId Credit creditPools)

/-! ## The condition -/

/-- The row a transaction writes last on a checked balance is stamped after
all the balance's other rows. -/
def RowsInOrder (clock : Nat → Stamp) (s : Books) (stmts : List Stmt) : Prop :=
  ∀ k ∈ stmts.filterMap Stmt.key?, checked k.2 = true →
    Timely Prod.fst Prod.snd k
      (written clock s.ledger.length stmts ++ s.ledger.map LedgerRow.entry)

instance (clock : Nat → Stamp) (s : Books) (stmts : List Stmt) :
    Decidable (RowsInOrder clock s stmts) :=
  inferInstanceAs (Decidable (∀ k ∈ stmts.filterMap Stmt.key?, checked k.2 = true →
    Timely Prod.fst Prod.snd k
      (written clock s.ledger.length stmts ++ s.ledger.map LedgerRow.entry)))

/-- No claim of earned $SCAD, no reset of a demo bot whose balance the ledger
knows, and no rows out of order. -/
def ok (clock : Nat → Stamp) (s : Books) : Act → Prop
  | .operation o =>
      match o.script s with
      | .ok stmts => RowsInOrder clock s stmts
      | .error _ => True
  | .ensureBot botId => ofKey LedgerRow.key (botId, .jeton) s.ledger = [] ∨
      (s.row botId).balance .jeton = DEMO_BOT_BALANCE
  | .claimWagerReward .. => False
  | _ => True

instance (clock : Nat → Stamp) (s : Books) : ∀ act, Decidable (ok clock s act)
  | .operation o =>
      match hs : o.script s with
      | .ok stmts => decidable_of_iff (RowsInOrder clock s stmts) (by simp [ok, hs])
      | .error _ => .isTrue (by simp [ok, hs])
  | .ensureBot botId => inferInstanceAs (Decidable
      (ofKey LedgerRow.key (botId, .jeton) s.ledger = [] ∨
        (s.row botId).balance .jeton = DEMO_BOT_BALANCE))
  | .claimWagerReward .. => .isFalse id
  | .createUser _ | .accrue _ | .claimCashback .. | .claimDividend .. | .openDailyCase ..
  | .confirmClaim .. | .missClaim .. => .isTrue trivial

/-! ## The invariant -/

structure Inv (s : Books) : Prop where
  totals : ∀ u, (s.row u).totals = betAgg (s.betsOf u)
  newest : Newest s
  timely : ∀ k : UserId × Currency, checked k.2 = true →
    Timely LedgerRow.key LedgerRow.stamp k s.ledger
  shares : ∀ id p, s.pools.get id = some p → s.sharesIn id = p.totalShares
  principal : ∀ u, (s.row u).balance .scad_vault = s.principalOf u
  /-- Nothing waits to be restored. -/
  unclaimed : ∀ id claim, s.claims.get id = some claim → claim.kind = .wagerReward →
    claim.status ≠ .pending

variable {clock : Nat → Stamp} {s s' : Books} {stmts : List Stmt}

theorem Inv.consistent (h : Inv s) : Consistent s where
  totals := h.totals
  balances u c hc := by
    unfold latestOf
    rw [(h.timely (u, c) hc).latest_eq]
    exact h.newest u c hc
  shares := h.shares
  principal := h.principal

theorem inv_initial {pools : Table PoolId VaultPool}
    (hpools : ∀ id p, pools.get id = some p → p.Genesis) : Inv (.initial pools) where
  totals u := rfl
  newest u c hc := by
    cases c with
    | jeton => exact .inl rfl
    | scad | scad_staked => exact .inr rfl
    | usds => cases hc
    | scad_vault => cases hc
  timely _ _ := timely_nil
  shares id p hp := (hpools id p hp).2.1.symm
  principal u := rfl
  unclaimed _ _ h := by cases h

/-! ## Direct writes -/

/-- A step that leaves alone what is compared. -/
structure Untouched (s s' : Books) : Prop where
  totals : ∀ u, (s'.row u).totals = (s.row u).totals
  balance : ∀ u c, c ≠ .usds → (s'.row u).balance c = (s.row u).balance c
  ledger : s'.ledger = s.ledger
  bets : s'.bets = s.bets
  pools : ∀ id p', s'.pools.get id = some p' →
    ∃ p, s.pools.get id = some p ∧ p.totalShares = p'.totalShares
  positions : s'.positions = s.positions
  unclaimed : ∀ id claim, s'.claims.get id = some claim → claim.kind = .wagerReward →
    claim.status = .pending → ∃ claim, s.claims.get id = some claim ∧ claim.kind = .wagerReward ∧
      claim.status = .pending

theorem Inv.untouched (h : Inv s) (hu : Untouched s s') : Inv s' where
  totals u := by
    rw [hu.totals, h.totals]
    unfold Books.betsOf
    rw [hu.bets]
  newest := by
    refine h.newest.of_balances hu.ledger fun u c hc => hu.balance u c ?_
    rintro rfl
    cases hc
  timely k hk := by
    rw [hu.ledger]
    exact h.timely k hk
  shares id p' hp' := by
    obtain ⟨p, hp, heq⟩ := hu.pools id p' hp'
    have hs := h.shares id p hp
    unfold Books.sharesIn at *
    rw [hu.positions, hs, heq]
  principal u := by
    rw [hu.balance u _ (by decide), h.principal]
    unfold Books.principalOf
    rw [hu.positions]
  unclaimed id claim hclaim hkind hpending := by
    obtain ⟨old, hold, hk, hp⟩ := hu.unclaimed id claim hclaim hkind hpending
    exact h.unclaimed id old hold hk hp

theorem Untouched.refl (s : Books) : Untouched s s where
  totals _ := rfl
  balance _ _ _ := rfl
  ledger := rfl
  bets := rfl
  pools _ p hp := ⟨p, hp, rfl⟩
  positions := rfl
  unclaimed _ claim h hk hp := ⟨claim, h, hk, hp⟩

theorem Untouched.trans {s'' : Books} (h : Untouched s s') (h' : Untouched s' s'') :
    Untouched s s'' where
  totals u := (h'.totals u).trans (h.totals u)
  balance u c hc := (h'.balance u c hc).trans (h.balance u c hc)
  ledger := h'.ledger.trans h.ledger
  bets := h'.bets.trans h.bets
  pools id p hp := by
    obtain ⟨p', hp', heq'⟩ := h'.pools id p hp
    obtain ⟨p₀, hp₀, heq⟩ := h.pools id p' hp'
    exact ⟨p₀, hp₀, heq.trans heq'⟩
  positions := h'.positions.trans h.positions
  unclaimed id claim hc hk hp := by
    obtain ⟨claim', hc', hk', hp'⟩ := h'.unclaimed id claim hc hk hp
    exact h.unclaimed id claim' hc' hk' hp'

/-- Columns of a user that no check reads. -/
theorem updateUser_untouched {u : UserId} {data : UserRow → UserRow}
    (h : updateUser s u data = .ok s') (htotals : ∀ row, (data row).totals = row.totals)
    (hbalance : ∀ row c, c ≠ .usds → (data row).balance c = row.balance c) : Untouched s s' := by
  obtain ⟨row, hrow, rfl⟩ := updateUser_ok h
  have hset : ∀ v, Books.row { s with users := s.users.set u (data row) } v =
      if v = u then data row else s.row v := Books.row_set rfl
  exact
    { Untouched.refl s with
      totals := by
        intro v
        rw [hset]
        split
        · rename_i hv
          rw [htotals, hv, Books.row_eq hrow]
        · rfl
      balance := by
        intro v c hc
        rw [hset]
        split
        · rename_i hv
          rw [hbalance row c hc, hv, Books.row_eq hrow]
        · rfl }

/-- A claim that is written; if it is one of earned $SCAD and pending, so was
the one before. -/
theorem claims_untouched {claimId : ClaimId} {claim : RewardClaim}
    (h : claim.kind = .wagerReward → claim.status = .pending →
      ∃ old, s.claims.get claimId = some old ∧ old.kind = .wagerReward ∧ old.status = .pending) :
    Untouched s (flip s claimId claim) :=
  { Untouched.refl s with
    unclaimed := s.claims.forall_set (fun _ old hold hk hp => ⟨old, hold, hk, hp⟩) h }

theorem createClaim_untouched {claimId : ClaimId} {claim : RewardClaim}
    (h : createClaim s claimId claim = .ok s') (hkind : claim.kind ≠ .wagerReward) :
    Untouched s s' := by
  simp only [createClaim, bind_ok] at h
  obtain ⟨-, -, hs⟩ := h
  cases hs
  exact claims_untouched fun hk => absurd hk hkind

theorem createUser_untouched {u : UserId} (h : createUser s u = .ok s') : Untouched s s' := by
  unfold createUser at h
  split at h
  · cases h
  · rename_i hnone
    cases h
    have hrow : ∀ v, Books.row { s with users := s.users.set u .new } v = s.row v := by
      intro v
      rw [Books.row_set rfl]
      split
      · rename_i hv
        simp [Books.row, hv, hnone]
      · rfl
    exact
      { Untouched.refl s with
        totals := fun v => by rw [hrow]
        balance := fun v c _ => by rw [hrow] }

theorem creditPools_shares {cs : List Credit} {pools pools' : Table PoolId VaultPool}
    (h : creditPools pools cs = .ok pools') : ∀ id p', pools'.get id = some p' →
      ∃ p, pools.get id = some p ∧ p.totalShares = p'.totalShares := by
  induction cs generalizing pools with
  | nil =>
    cases h
    exact fun id p hp => ⟨p, hp, rfl⟩
  | cons c cs ih =>
    simp only [creditPools, bind_ok, orThrow_ok] at h
    obtain ⟨p, hp, hrest⟩ := h
    intro id p' hp'
    obtain ⟨q, hq, heq⟩ := ih hrest id p' hp'
    rw [Table.get_set] at hq
    split at hq
    · rename_i hid
      cases hq
      exact ⟨p, hid ▸ hp, heq⟩
    · exact ⟨q, hq, heq⟩

theorem accrue_untouched {cs : List Credit} (h : accrue s cs = .ok s') : Untouched s s' := by
  simp only [accrue, bind_ok] at h
  obtain ⟨pools, hpools, hs⟩ := h
  cases hs
  exact { Untouched.refl s with pools := creditPools_shares hpools }

theorem claimCashback_untouched {u : UserId} {claimId : ClaimId}
    (h : claimCashback s u claimId = .ok s') : Untouched s s' := by
  simp only [claimCashback, bind_ok] at h
  obtain ⟨_, -, -, -, -, -, hcreate⟩ := h
  exact createClaim_untouched hcreate (by simp)

theorem claimDividend_untouched {u : UserId} {claimId : ClaimId}
    (h : claimDividend s u claimId = .ok s') : Untouched s s' := by
  simp only [claimDividend, bind_ok] at h
  obtain ⟨_, -, -, -, -, -, _, hreserve, hcreate⟩ := h
  refine (updateUser_untouched hreserve (fun _ => rfl) ?_).trans
    (createClaim_untouched hcreate (by simp))
  intro row c hc
  simp [UserRow.increment, hc]

theorem openDailyCase_untouched {u : UserId} {claimId : ClaimId} {amount : Nat} {chain : Bool}
    (h : openDailyCase s u claimId amount chain = .ok s') : Untouched s s' := by
  simp only [openDailyCase, bind_ok] at h
  obtain ⟨_, -, hcreate⟩ := h
  exact createClaim_untouched hcreate (by simp)

theorem confirmClaim_untouched {claimId : ClaimId} {totalLost : Int}
    (h : confirmClaim s claimId totalLost = .ok s') : Untouched s s' := by
  unfold confirmClaim at h
  split at h
  case h_1 =>
    cases h
    exact .refl s
  case h_2 claim hclaim =>
    split at h
    · cases h
      exact .refl s
    · have hflip : Untouched s (flip s claimId { claim with status := .confirmed }) :=
        claims_untouched nofun
      simp only at h
      split at h
      · exact hflip.trans (updateUser_untouched h (fun _ => rfl) fun _ _ _ => rfl)
      · exact hflip.trans (updateUser_untouched h (fun _ => rfl) fun _ _ _ => rfl)
      · exact hflip.trans (updateUser_untouched h (fun _ => rfl) fun _ _ _ => rfl)
      · cases h
        exact hflip

/-- With no claim of earned $SCAD pending, nothing is restored. -/
theorem missClaim_untouched (hi : Inv s) {claimId : ClaimId} {attemptsRead : Nat}
    (h : missClaim s claimId attemptsRead = .ok s') : Untouched s s' := by
  unfold missClaim at h
  split at h
  case h_1 =>
    cases h
    exact .refl s
  case h_2 claim hclaim =>
    simp only at h
    split at h
    · cases h
      exact claims_untouched fun hk hp => ⟨claim, hclaim, hk, hp⟩
    · split at h
      · cases h
        exact .refl s
      · rename_i hpending
        have hflip : Untouched s
            (flip s claimId { claim with status := .failed, attempts := attemptsRead + 1 }) :=
          claims_untouched nofun
        split at h
        · rename_i hkind
          exact absurd (of_not_not hpending) (hi.unclaimed claimId claim hclaim hkind)
        · refine hflip.trans (updateUser_untouched h (fun _ => rfl) ?_)
          intro row c hc
          simp [UserRow.increment, hc]
        · cases h
          exact hflip

/-- A bot whose balance the ledger does not know may be reset. -/
theorem ensureBot_inv (hi : Inv s) {botId : UserId} (hok : ok clock s (.ensureBot botId)) :
    Inv (ensureBot s botId) := by
  have hrow : ∀ v, (ensureBot s botId).row v = if v = botId then
      { s.row botId with
        balance := Function.update (s.row botId).balance .jeton DEMO_BOT_BALANCE } else s.row v :=
    Books.row_set rfl
  have hother : ∀ v c, c ≠ .jeton →
      ((ensureBot s botId).row v).balance c = (s.row v).balance c := by
    intro v c hc
    rw [hrow]
    split
    · rename_i hv
      simp [hv, hc]
    · rfl
  exact
    { totals := by
        intro v
        rw [hrow]
        split
        · rename_i hv
          exact hv ▸ hi.totals botId
        · exact hi.totals v
      newest := by
        intro v c hc
        have hold := hi.newest v c hc
        by_cases hv : v = botId ∧ c = .jeton
        · obtain ⟨rfl, rfl⟩ := hv
          rw [hrow, if_pos rfl]
          show Records _ _ (ofKey LedgerRow.key _ s.ledger).head?
          rcases hok with hnone | hsame
          · rw [hnone]
            exact .inl rfl
          · rw [hsame] at hold
            simpa using hold
        · have hsame : ((ensureBot s botId).row v).balance c = (s.row v).balance c := by
            by_cases hj : c = .jeton
            · have hne : v ≠ botId := fun h => hv ⟨h, hj⟩
              rw [hrow, if_neg hne]
            · exact hother v c hj
          rw [hsame]
          exact hold
      timely := hi.timely
      shares := hi.shares
      principal := by
        intro v
        rw [hother v _ (by decide)]
        exact hi.principal v
      unclaimed := hi.unclaimed }

/-! ## Operations -/

theorem written_keys {n : Nat} {k : UserId × Currency} (h : k ∉ stmts.filterMap Stmt.key?) :
    ofKey Prod.fst k (written clock n stmts) = [] := by
  refine ofKey_eq_nil ?_
  induction stmts generalizing n with
  | nil => simp [written]
  | cons stmt rest ih =>
    cases hkey : stmt.key? with
    | none =>
      simp only [List.filterMap_cons, hkey] at h
      simpa [written, hkey] using ih h
    | some =>
      simp only [List.filterMap_cons, hkey, List.mem_cons, not_or] at h
      intro e he
      simp only [written, hkey, List.mem_append, List.mem_singleton] at he
      rcases he with he | rfl
      · exact ih h.2 e he
      · exact Ne.symm h.1

/-- Rows in order keep the last row of every checked balance the latest. -/
theorem Executed.timely (h : Executed clock stmts s s') (hrows : RowsInOrder clock s stmts)
    {k : UserId × Currency} (hk : checked k.2 = true)
    (hold : Timely LedgerRow.key LedgerRow.stamp k s.ledger) :
    Timely LedgerRow.key LedgerRow.stamp k s'.ledger := by
  have hmap : ∀ log : List LedgerRow, Timely Prod.fst Prod.snd k (log.map LedgerRow.entry) ↔
      Timely LedgerRow.key LedgerRow.stamp k log :=
    fun log => Timely.map (fun _ => rfl) fun _ => rfl
  rw [← hmap] at hold ⊢
  rw [h.entries]
  by_cases hmem : k ∈ stmts.filterMap Stmt.key?
  · exact hrows k hmem hk
  · refine hold.of_rows ?_
    rw [ofKey_append, written_keys hmem, List.nil_append]

/-- A transaction that keeps the vault's books keeps all of them. -/
theorem Inv.executed (hi : Inv s) (h : Executed clock stmts s s') (hb : Balanced stmts)
    (hrows : RowsInOrder clock s stmts)
    (hshares : ∀ id p, s'.pools.get id = some p → s'.sharesIn id = p.totalShares)
    (hprincipal : ∀ u, (s'.row u).balance .scad_vault = s'.principalOf u) : Inv s' where
  totals u := by
    have hnonneg : 0 ≤ (s.row u).totals.biggest := by
      rw [hi.totals]
      exact betAgg_biggest _
    rw [h.row, after_totals_list, h.bets, hb u _ hnonneg, hi.totals]
  newest := h.newest hi.newest
  timely k hk := h.timely hrows hk (hi.timely k hk)
  shares := hshares
  principal := hprincipal
  unclaimed := by
    rw [h.claims]
    exact hi.unclaimed

/-- A statement that is not of the vault. -/
def Stmt.plain : Stmt → Bool
  | .move _ _ currency _ => decide (currency ≠ .scad_vault)
  | .setPool .. | .putPosition .. => false
  | _ => true

theorem plain_list (h : ∀ stmt ∈ stmts, stmt.plain = true) (u : UserId)
    (pools : Table PoolId VaultPool) (positions : Table PositionId VaultPosition) :
    (stmts.map (·.deltaOf u .scad_vault)).sum = 0 ∧ stmts.foldl Stmt.onPools pools = pools ∧
      stmts.foldl Stmt.onPositions positions = positions := by
  induction stmts with
  | nil => simp
  | cons stmt rest ih =>
    obtain ⟨hdelta, hpools, hpositions⟩ := ih fun stmt hs => h stmt (List.mem_cons_of_mem _ hs)
    have hstmt := h stmt (List.mem_cons_self ..)
    cases stmt with
    | move userId delta currency =>
      have hne : currency ≠ .scad_vault := by simpa [Stmt.plain] using hstmt
      simpa [Stmt.deltaOf, Stmt.onPools, Stmt.onPositions, hne] using ⟨hdelta, hpools, hpositions⟩
    | record | createBet =>
      simpa [Stmt.deltaOf, Stmt.onPools, Stmt.onPositions] using ⟨hdelta, hpools, hpositions⟩
    | setPool | putPosition => cases hstmt

theorem Inv.executed_plain (hi : Inv s) (h : Executed clock stmts s s') (hb : Balanced stmts)
    (hplain : ∀ stmt ∈ stmts, stmt.plain = true) (hrows : RowsInOrder clock s stmts) : Inv s' := by
  have hsame := fun u => plain_list hplain u s.pools s.positions
  refine hi.executed h hb hrows ?_ ?_
  · intro id p hp
    rw [h.pools, (hsame 0).2.1] at hp
    have hs := hi.shares id p hp
    unfold Books.sharesIn at *
    rw [h.positions, (hsame 0).2.2, hs]
  · intro u
    rw [h.row, after_balance_list, (hsame u).1, hi.principal]
    unfold Books.principalOf
    rw [h.positions, (hsame u).2.2, Int.add_zero]

/-! ## Which operations are plain -/

theorem credit_plain {u : UserId} {payout : Nat} : ∀ stmt ∈ credit u payout, stmt.plain = true := by
  unfold credit
  split
  · simp [Stmt.plain]
  · simp

theorem settleResult_plain (r : Result) : ∀ stmt ∈ settleResult r, stmt.plain = true := by
  simp only [settleResult, recordBet, List.forall_mem_append, List.forall_mem_singleton]
  exact ⟨⟨rfl, credit_plain⟩, rfl⟩

theorem settleStatefulRound_plain (u : UserId) (stake payout : Nat) :
    ∀ stmt ∈ settleStatefulRound u stake payout, stmt.plain = true := by
  simp only [settleStatefulRound, recordBet, List.forall_mem_append, List.forall_mem_singleton]
  exact ⟨⟨credit_plain, rfl⟩, rfl⟩

theorem settleSide_plain (stake : Nat) (u : UserId) (won : Bool) :
    ∀ stmt ∈ settleSide stake u won, stmt.plain = true := by
  cases won with
  | true | false => simp [settleSide, Stmt.plain]

theorem moveStake_plain (u : UserId) (amount : Int) :
    ∀ stmt ∈ moveStake u amount, stmt.plain = true := by
  simp [moveStake, Stmt.plain]

theorem forall_mem_flatMap {α : Type} {xs : List α} {f : α → List Stmt} {P : Stmt → Prop}
    (h : ∀ x, ∀ stmt ∈ f x, P stmt) : ∀ stmt ∈ xs.flatMap f, P stmt := by
  intro stmt hs
  obtain ⟨x, -, hx⟩ := List.mem_flatMap.mp hs
  exact h x stmt hx

/-- An operation that does not touch the vault. -/
structure Ordinary (stmts : List Stmt) : Prop where
  balanced : Balanced stmts
  plain : ∀ stmt ∈ stmts, stmt.plain = true

theorem ordinary_neutral (hn : ∀ stmt ∈ stmts, stmt.neutral = true)
    (hp : ∀ stmt ∈ stmts, stmt.plain = true) : Ordinary stmts := ⟨.of_neutral hn, hp⟩

theorem ordinary_moveStake (u : UserId) (amount : Int) : Ordinary (moveStake u amount) :=
  ordinary_neutral (by simp [moveStake, Stmt.neutral]) (moveStake_plain u amount)

theorem ordinary_results (rs : List Result) : Ordinary (rs.flatMap settleResult) where
  balanced := .flatMap fun r _ => settleResult_balanced r
  plain := forall_mem_flatMap settleResult_plain

/-- Every operation but the vault's two. -/
theorem script_ordinary {o : Operation} (h : o.script s = .ok stmts)
    (hdeposit : ∀ u poolId amount now id, o ≠ .deposit u poolId amount now id)
    (hwithdraw : ∀ u id shares now, o ≠ .withdraw u id shares now) : Ordinary stmts := by
  cases o with
  | movements =>
    cases h
    refine ordinary_neutral ?_ ?_
    · simp [movements, Stmt.neutral]
    · intro stmt hs
      obtain ⟨m, -, rfl⟩ := List.mem_map.mp hs
      simp [Stmt.plain, m.notVault]
  | settleInstantBet u amount payout =>
    cases h
    refine ⟨settleInstantBet_balanced u amount payout, ?_⟩
    have hround := settleStatefulRound_plain u amount payout
    simp only [settleStatefulRound, List.forall_mem_append] at hround
    simp only [settleInstantBet, List.forall_mem_append, List.forall_mem_singleton]
    exact ⟨⟨⟨rfl, hround.1.1⟩, hround.1.2⟩, rfl⟩
  | settleStatefulRound u stakeLamports payout =>
    cases h
    exact ⟨settleStatefulRound_balanced u stakeLamports payout,
      settleStatefulRound_plain u stakeLamports payout⟩
  | settleCrash bets =>
    cases h
    exact ordinary_results bets
  | recoverCrash =>
    cases h
    exact ⟨.flatMap fun b _ => recoverBet_balanced b, forall_mem_flatMap fun b =>
      settleStatefulRound_plain b.userId b.amountLamports (b.payoutLamports + b.remainingLamports)⟩
  | settleBlackjack seats =>
    cases h
    exact ordinary_results seats
  | settleJackpot =>
    cases h
    exact ⟨.flatMap fun p _ => settleResult_balanced _, forall_mem_flatMap fun p =>
      settleResult_plain _⟩
  | settleLottery results enabled =>
    cases h
    refine ⟨settleLottery_balanced results enabled, ?_⟩
    simp only [settleLottery, List.forall_mem_append, List.forall_mem_map]
    refine ⟨⟨fun p _ => rfl, ?_⟩, fun r _ => rfl⟩
    cases enabled with
    | true => simp
    | false => exact forall_mem_flatMap fun r => credit_plain
  | resolveFlip creatorId joiner stakeLamports won =>
    cases h
    refine ⟨resolveFlip_balanced creatorId joiner stakeLamports won, ?_⟩
    cases joiner with
    | none => exact settleSide_plain stakeLamports creatorId won
    | some joinerId =>
      simp only [resolveFlip, List.forall_mem_cons, List.forall_mem_append]
      exact ⟨rfl, settleSide_plain stakeLamports creatorId won,
        settleSide_plain stakeLamports joinerId !won⟩
  | stake u amount =>
    simp only [Operation.script, stake, bind_ok, ensure_ok] at h
    obtain ⟨-, -, hs⟩ := h
    cases hs
    exact ordinary_moveStake u amount
  | autoStakeSweep u =>
    simp only [Operation.script, autoStakeSweep] at h
    split at h
    · cases h
      exact ordinary_neutral (by simp) (by simp)
    · split at h
      · cases h
        exact ordinary_neutral (by simp) (by simp)
      · cases h
        exact ordinary_moveStake u _
  | unstake =>
    simp only [Operation.script, unstake, bind_ok, ensure_ok, orThrow_ok] at h
    obtain ⟨-, -, _, -, -, -, hs⟩ := h
    cases hs
    exact ordinary_neutral (by simp [Stmt.neutral]) (by simp [Stmt.plain])
  | deposit u poolId amount now id => exact absurd rfl (hdeposit u poolId amount now id)
  | withdraw u id shares now => exact absurd rfl (hwithdraw u id shares now)

/-! ## The vault -/

theorem sum_putPosition {positions : Table PositionId VaultPosition} {id : PositionId}
    {position : VaultPosition} (hp : positions.get id = some position)
    (new : Option VaultPosition) (g : VaultPosition → Nat) :
    (putPosition positions id new).sum g + g position = positions.sum g + (new.map g).getD 0 := by
  cases new with
  | none => exact positions.sum_erase hp
  | some new =>
    have hset := positions.sum_set (k := id) (a := new) (g := g)
    rwa [hp] at hset

/-- The statements of a deposit. -/
theorem deposit_ok {userId : UserId} {poolId : PoolId} {amount : Int} {now : Time}
    {positionId : PositionId} (h : deposit s userId poolId amount now positionId = .ok stmts) :
    ∃ (n shares : Nat) (assets : Int) (pool : VaultPool) (maturesAt : Time),
      s.pools.get poolId = some pool ∧ s.positions.get positionId = none ∧ stmts =
        [.move userId (-n) .scad none, .move userId n .scad_vault none,
          .setPool poolId { pool with
            totalAssets := assets, totalShares := pool.totalShares + shares },
          .putPosition positionId (some ⟨userId, poolId, shares, n, maturesAt⟩)] := by
  simp only [deposit, bind_ok, ensure_ok, orThrow_ok] at h
  obtain ⟨-, -, pool, hpool, -, -, -, -, -, hfresh, hs⟩ := h
  cases hs
  exact ⟨_, _, _, pool, _, hpool, by simpa using hfresh, rfl⟩

theorem deposit_inv (hi : Inv s) {userId : UserId} {poolId : PoolId} {amount : Int} {now : Time}
    {positionId : PositionId} (hscript : deposit s userId poolId amount now positionId = .ok stmts)
    (hrows : RowsInOrder clock s stmts) (h : Executed clock stmts s s') : Inv s' := by
  obtain ⟨n, shares, assets, pool, maturesAt, hpool, hfresh, rfl⟩ := deposit_ok hscript
  have hsum : ∀ g, s'.positions.sum g =
      s.positions.sum g + g ⟨userId, poolId, shares, n, maturesAt⟩ := by
    intro g
    have hset := s.positions.sum_set (k := positionId)
      (a := (⟨userId, poolId, shares, n, maturesAt⟩ : VaultPosition)) (g := g)
    rw [hfresh] at hset
    rw [h.positions]
    exact hset
  refine hi.executed h (.of_neutral (by simp [Stmt.neutral])) hrows ?_ ?_
  · intro id p hp
    have hpools : s'.pools = s.pools.set poolId
        { pool with totalAssets := assets, totalShares := pool.totalShares + shares } := h.pools
    unfold Books.sharesIn
    rw [hsum]
    rw [hpools, Table.get_set] at hp
    split at hp
    · rename_i hid
      subst hid
      cases hp
      have hs := hi.shares id pool hpool
      unfold Books.sharesIn at hs
      simp [hs]
    · rename_i hid
      have hs := hi.shares id p hp
      unfold Books.sharesIn at hs
      simp [hs, Ne.symm hid]
  · intro u
    have hold := hi.principal u
    unfold Books.principalOf at *
    rw [h.row, after_balance_list, hold, hsum]
    by_cases hu : userId = u
    · simp [Stmt.deltaOf, hu]
    · simp [Stmt.deltaOf, hu]

/-- The statements of a withdrawal. -/
theorem withdraw_ok {userId : UserId} {positionId : PositionId} {shares : Option Int} {now : Time}
    (h : withdraw s userId positionId shares now = .ok stmts) :
    ∃ (burned net penalty : Nat) (position : VaultPosition) (pool : VaultPool),
      s.positions.get positionId = some position ∧ s.pools.get position.poolId = some pool ∧
      position.userId = userId ∧ burned ≤ position.shares ∧ stmts =
        [.move userId (-Vault.principalPortion position burned) .scad_vault none] ++
          creditNet userId net ++
          [.setPool position.poolId (pool.exit burned net penalty),
            .putPosition positionId
              (remaining position burned (Vault.principalPortion position burned))] := by
  simp only [withdraw, bind_ok, ensure_ok, orThrow_ok] at h
  obtain ⟨position, hposition, pool, hpool, -, huser, -, _, -, _, hs⟩ := h
  cases hs
  refine ⟨_, _, _, position, pool, hposition, hpool, huser, ?_, rfl⟩
  omega

theorem principalPortion_le {position : VaultPosition} {burned : Nat}
    (hle : burned ≤ position.shares) :
    Vault.principalPortion position burned ≤ position.principal := by
  unfold Vault.principalPortion
  split
  · exact Nat.le_refl _
  · refine Nat.div_le_of_le_mul ?_
    rw [Nat.mul_comm]
    exact Nat.mul_le_mul_right _ hle

/-- What is left of a position, in shares and in principal. -/
theorem remaining_left {position : VaultPosition} {burned portion : Nat}
    (hle : burned ≤ position.shares) (hportion : portion = Vault.principalPortion position burned) :
    ((remaining position burned portion).map (·.shares)).getD 0 = position.shares - burned ∧
      ((remaining position burned portion).map (·.principal)).getD 0 =
        position.principal - portion := by
  subst hportion
  unfold remaining
  by_cases hall : position.shares - burned = 0
  · have heq : burned = position.shares := by omega
    simp [heq, Vault.principalPortion]
  · simp [hall]

theorem remaining_owner {position p : VaultPosition} {burned portion : Nat}
    (h : remaining position burned portion = some p) :
    p.userId = position.userId ∧ p.poolId = position.poolId := by
  unfold remaining at h
  split at h
  · cases h
  · cases h
    exact ⟨rfl, rfl⟩

/-- What a position that is exited weighs, before and after. -/
theorem exit_weighs (position : VaultPosition) (burned portion : Nat) {P : VaultPosition → Prop}
    [DecidablePred P] (hP : ∀ p, remaining position burned portion = some p → (P p ↔ P position))
    (w : VaultPosition → Nat) :
    ((remaining position burned portion).map fun q => if P q then w q else 0).getD 0 =
      if P position then ((remaining position burned portion).map w).getD 0 else 0 := by
  cases hleft : remaining position burned portion with
  | none => simp
  | some p =>
    have hiff := hP p hleft
    by_cases hp : P position
    · simp [hp, hiff.mpr hp]
    · have hnot : ¬ P p := fun h => hp (hiff.mp h)
      simp [hp, hnot]

theorem withdraw_inv (hi : Inv s) {userId : UserId} {positionId : PositionId} {shares : Option Int}
    {now : Time} (hscript : withdraw s userId positionId shares now = .ok stmts)
    (hrows : RowsInOrder clock s stmts) (h : Executed clock stmts s s') : Inv s' := by
  obtain ⟨burned, net, penalty, position, pool, hposition, hpool, huser, hle, rfl⟩ :=
    withdraw_ok hscript
  have hnet : ∀ pools : Table PoolId VaultPool, ∀ positions : Table PositionId VaultPosition,
      (creditNet userId net).foldl Stmt.onPools pools = pools ∧
        (creditNet userId net).foldl Stmt.onPositions positions = positions := by
    intro pools positions
    unfold creditNet
    split <;> exact ⟨rfl, rfl⟩
  have hpools : s'.pools = s.pools.set position.poolId (pool.exit burned net penalty) := by
    rw [h.pools, List.foldl_append, List.foldl_append, (hnet _ s.positions).1]
    rfl
  have hpositions : s'.positions = putPosition s.positions positionId
      (remaining position burned (Vault.principalPortion position burned)) := by
    rw [h.positions, List.foldl_append, List.foldl_append, (hnet s.pools _).2]
    rfl
  obtain ⟨hshares, hprincipal⟩ := remaining_left hle rfl
  have hneutral : ∀ stmt ∈ creditNet userId net, stmt.neutral = true := by
    unfold creditNet
    split
    · simp [Stmt.neutral]
    · simp
  refine hi.executed h (.of_neutral ?_) hrows ?_ ?_
  · simp only [List.forall_mem_append, List.forall_mem_cons]
    exact ⟨⟨⟨rfl, by simp⟩, hneutral⟩, rfl, rfl, by simp⟩
  · intro id p hp
    have hsum := sum_putPosition hposition
      (remaining position burned (Vault.principalPortion position burned))
      fun q => if q.poolId = id then q.shares else 0
    have hweighs := exit_weighs position burned (Vault.principalPortion position burned)
      (P := fun q => q.poolId = id) (fun p hleft => by rw [(remaining_owner hleft).2]) (·.shares)
    rw [hweighs, hshares, ← hpositions] at hsum
    unfold Books.sharesIn
    rw [hpools, Table.get_set] at hp
    split at hp
    · rename_i hid
      subst hid
      cases hp
      have hs := hi.shares _ pool hpool
      unfold Books.sharesIn at hs
      rw [hs] at hsum
      simp only [if_true] at hsum
      rw [Vault.VaultPool.exit_totalShares]
      omega
    · rename_i hid
      have hs := hi.shares id p hp
      unfold Books.sharesIn at hs
      rw [hs] at hsum
      simp only [Ne.symm hid, if_false] at hsum
      omega
  · intro u
    have hsum := sum_putPosition hposition
      (remaining position burned (Vault.principalPortion position burned))
      fun q => if q.userId = u then q.principal else 0
    have hweighs := exit_weighs position burned (Vault.principalPortion position burned)
      (P := fun q => q.userId = u) (fun p hleft => by rw [(remaining_owner hleft).1]) (·.principal)
    rw [hweighs, hprincipal, ← hpositions] at hsum
    have hold := hi.principal u
    have hportion := principalPortion_le hle
    unfold Books.principalOf at *
    have hdelta : ((creditNet userId net).map (·.deltaOf u .scad_vault)).sum = 0 := by
      unfold creditNet
      split
      · simp [Stmt.deltaOf]
      · simp
    rw [h.row, after_balance_list, hold]
    simp only [List.map_append, List.sum_append, hdelta]
    subst huser
    by_cases hu : position.userId = u
    · simp only [hu, if_true] at hsum
      simp only [Stmt.deltaOf, hu, List.map_cons, List.map_nil, List.sum_cons, List.sum_nil,
        and_self, if_true]
      omega
    · simp only [hu, if_false] at hsum
      simp only [Stmt.deltaOf, hu, List.map_cons, List.map_nil, List.sum_cons, List.sum_nil,
        false_and, if_false]
      omega

/-! ## Runs -/

theorem operation_inv (hi : Inv s) {o : Operation} (hscript : o.script s = .ok stmts)
    (hrows : RowsInOrder clock s stmts) (h : Executed clock stmts s s') : Inv s' := by
  cases o with
  | deposit => exact deposit_inv hi hscript hrows h
  | withdraw => exact withdraw_inv hi hscript hrows h
  | _ =>
    have hord := script_ordinary hscript (by simp) (by simp)
    exact hi.executed_plain h hord.balanced hord.plain hrows

theorem perform_inv (hi : Inv s) {act : Act} (hok : ok clock s act)
    (h : act.perform clock s = .ok s') : Inv s' := by
  cases act with
  | operation =>
    simp only [Act.perform, bind_ok] at h
    obtain ⟨stmts, hscript, hexec⟩ := h
    have hrows : RowsInOrder clock s stmts := by simpa only [ok, hscript] using hok
    exact operation_inv hi hscript hrows (exec_executed hexec)
  | createUser => exact hi.untouched (createUser_untouched h)
  | ensureBot =>
    cases h
    exact ensureBot_inv hi hok
  | accrue => exact hi.untouched (accrue_untouched h)
  | claimWagerReward => cases hok
  | claimCashback => exact hi.untouched (claimCashback_untouched h)
  | claimDividend => exact hi.untouched (claimDividend_untouched h)
  | openDailyCase => exact hi.untouched (openDailyCase_untouched h)
  | confirmClaim => exact hi.untouched (confirmClaim_untouched h)
  | missClaim => exact hi.untouched (missClaim_untouched hi h)

theorem step_inv {s s' : Books} {act : Act} (hok : ok clock s act) (hi : Inv s)
    (h : step clock s act = some s') : Inv s' := by
  unfold step at h
  cases hperform : act.perform clock s with
  | ok =>
    rw [hperform] at h
    cases h
    exact perform_inv hi hok hperform
  | error =>
    rw [hperform] at h
    cases h

/-- **No false alarm.** Along a run whose rows are in order, without a claim
of earned $SCAD and without a reset that the ledger does not know of, no check
reports a drift in any state reached. -/
theorem no_false_alarm (clock : Nat → Stamp) {pools : Table PoolId VaultPool}
    (hpools : ∀ id p, pools.get id = some p → p.Genesis) {acts : List Act} {s : Books}
    (hok : Along (step clock) (ok clock) (.initial pools) acts)
    (hrun : run (step clock) (.initial pools) acts = some s) : NoAlarm s :=
  have hinv : Inv s :=
    run_induct (fun _ _ _ hok hi h => step_inv hok hi h) (inv_initial hpools) hok hrun
  hinv.consistent.noAlarm

/-! ## What the condition leaves out -/

namespace Sample

/-- One row a millisecond. -/
def ticking (n : Nat) : Stamp := toLex (n, n)

/-- One millisecond, and ids the other way. -/
def tied (n : Nat) : Stamp := toLex (7, 9 - n)

def pools : Table PoolId VaultPool :=
  Table.empty.set 1 ⟨30, 0, 0, Shared.VAULT.INITIAL_INDEX_RAY, 1, 0, true⟩

theorem pools_genesis (id : PoolId) (p : VaultPool) (hp : pools.get id = some p) : p.Genesis := by
  rw [pools, Table.get_set] at hp
  split at hp
  · cases hp
    exact ⟨rfl, rfl, rfl⟩
  · cases hp

/-- A movement that is not the vault's. -/
def move (userId : UserId) (delta : Int) (currency : Currency)
    (notVault : currency ≠ .scad_vault) : Move := ⟨userId, delta, currency, none, notVault⟩

def reward (amount : Int) : Act := .operation (.movements [move 1 amount .scad (by decide)])

/-- A block reward, bets of several kinds, a stake, a vault position and claims. -/
def history : List Act :=
  [.createUser 1, .createUser 2, .ensureBot 3, reward 5000000000,
    .operation (.settleInstantBet 1 100 190),
    .operation (.movements [move 1 (-40) .jeton (by decide), move 2 (-60) .jeton (by decide)]),
    .operation (.settleCrash [⟨1, 40, 0⟩, ⟨2, 60, 75⟩]),
    .operation (.settleJackpot [(1, 5), (3, 9), (1, 5)] 1 17),
    .operation (.resolveFlip 1 (some 2) 100 true),
    .operation (.stake 1 1000000000), .operation (.deposit 1 1 2000000000 0 1),
    .operation (.withdraw 1 1 (some 500000000) 9), .operation (.unstake 1 1000000000),
    .operation (.movements [move 1 30 .usds (by decide)]), .claimDividend 1 1, .claimCashback 2 2,
    .missClaim 1 0, .confirmClaim 2 100]

end Sample

theorem no_false_alarm_sample : ∃ s,
    run (step Sample.ticking) (.initial Sample.pools) Sample.history = some s ∧ NoAlarm s := by
  have hsome : (run (step Sample.ticking) (.initial Sample.pools)
      Sample.history).isSome = true := by
    decide +kernel
  obtain ⟨s, hs⟩ := Option.isSome_iff_exists.mp hsome
  exact ⟨s, hs, no_false_alarm Sample.ticking Sample.pools_genesis (by decide +kernel) hs⟩

/-- A claim of a block reward, and a winning bet whose two rows coincide: both
raise an alarm. -/
theorem honest_runs_alarm :
    (∃ s, run (step Sample.ticking) (.initial .empty)
        [.createUser 1, Sample.reward 5000, .claimWagerReward 1 1] = some s ∧
      scadLedgerDrift s = [⟨1, "scadiumBalance", 0, 5000⟩]) ∧
    ∃ s, run (step Sample.tied) (.initial .empty)
        [.createUser 1, .operation (.settleInstantBet 1 100 190)] = some s ∧
      reconcileAll s = [⟨1, "playBalanceLamports", 10000000090, 9999999900⟩] := by
  constructor
  · have hany : (run (step Sample.ticking) (.initial .empty)
        [.createUser 1, Sample.reward 5000, .claimWagerReward 1 1]).any (fun s =>
          decide (scadLedgerDrift s = [⟨1, "scadiumBalance", 0, 5000⟩])) = true := by
      decide +kernel
    obtain ⟨s, hs, hdrift⟩ := (Option.any_eq_true _ _).mp hany
    exact ⟨s, hs, of_decide_eq_true hdrift⟩
  · have hany : (run (step Sample.tied) (.initial .empty)
        [.createUser 1, .operation (.settleInstantBet 1 100 190)]).any (fun s =>
          decide (reconcileAll s =
            [⟨1, "playBalanceLamports", 10000000090, 9999999900⟩])) = true := by
      decide +kernel
    obtain ⟨s, hs, hdrift⟩ := (Option.any_eq_true _ _).mp hany
    exact ⟨s, hs, of_decide_eq_true hdrift⟩

end Scadium.Reconciliation
