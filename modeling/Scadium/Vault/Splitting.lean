/-
Scadium.Vault.Splitting — an early exit from a term pool, at once or in
parts, in the on-chain program and in the off-chain vault.

In the program the parts are withdrawals by one user, each before the position
matures, with nothing in between. Each of them meets the pool as `EarlyExit`
says, so what they are paid and what they gain from their own penalties are
`paidInParts` and `gainInParts` of the shares that leave.

In both the penalty of a part is credited to all shares that are left, the
leaver's own among them, so leaving in parts pays more than leaving at once:
by what the raises add to the parts still to leave, less their penalty.
-/
import Scadium.Programs.Vault.Safety
import Scadium.Vault.Solvency

namespace Scadium.Programs.Vault

open Scadium.Lib Scadium.Lib.EarlyExit

variable {s s' : VaultState} {user : Pubkey} {term : Term}

/-- When, and how many shares. -/
abbrev Part := Int64 × UInt64

def Part.shares (p : Part) : Nat := p.2.toNat

def exitAct (user : Pubkey) (term : Term) (p : Part) : Act := .vaultWithdraw user term p.1 p.2

def VaultState.indexAt (s : VaultState) (term : Term) : Nat :=
  match s.pools.get term with
  | some a => a.pool.index_ray
  | none => 0

/-- The user's position is not mature. -/
def EarlyAt (s : VaultState) (user : Pubkey) (term : Term) (now : Int64) : Prop :=
  ∀ a p, s.pools.get term = some a → a.positions.get user = some p → now.toInt < p.matures_at

/-- What the index has gained above `i₀`, on the shares of each part when its
turn comes. -/
def ownGain (user : Pubkey) (term : Term) (i₀ : Nat) : VaultState → List Part → Nat
  | _, [] => 0
  | s, p :: ps => p.shares * (s.indexAt term - i₀) +
      match step s (exitAct user term p) with
      | some s' => ownGain user term i₀ s' ps
      | none => 0

theorem penaltyOf_eq (g : Nat) : penaltyOf g = g / 10 := by
  unfold penaltyOf EARLY_EXIT_PENALTY_BPS
  omega

/-- One part. -/
structure PartPaid (s s' : VaultState) (user : Pubkey) (term : Term) (shares : Nat)
    (a a' : PoolAccounts) : Prop where
  before : s.pools.get term = some a
  after : s'.pools.get term = some a'
  shares_le : shares ≤ a.pool.total_shares
  total_shares : a'.pool.total_shares = a.pool.total_shares - shares
  index_ray : a'.pool.index_ray = raised RAY 10 a.pool.total_shares a.pool.index_ray shares
  paid : s'.scad.get (.user user) =
    s.scad.get (.user user) + EarlyExit.paid 10 (shares * a.pool.index_ray / RAY)
  early : ∀ now, EarlyAt s user term now → EarlyAt s' user term now

theorem part_paid (hi : Inv s) {p : Part} (hearly : EarlyAt s user term p.1)
    (h : step s (exitAct user term p) = some s') :
    ∃ a a', PartPaid s s' user term p.shares a a' := by
  have hexec := step_ok.mp h
  simp only [exitAct, exec, Traced.bind_ok, Traced.outcome_pure, Except.ok.injEq] at hexec
  obtain ⟨⟨t, _⟩, hwithdraw, rfl⟩ := hexec
  obtain ⟨a, position, e, he, -⟩ := vault_withdraw_ok hwithdraw
  have hpool := hi term a he.pool
  obtain ⟨hgross, _, -⟩ := he.worth hpool
  have hmine := hpool.shares_le he.found
  have hle := he.shares_le
  -- before maturity the penalty is due
  have hpenalty : e.penalty = e.gross / 10 := by
    have hnow := hearly a position he.pool he.found
    rw [he.penalty_eq, penaltyDue, if_pos hnow, penaltyOf_eq]
  have hnet : e.net = EarlyExit.paid 10 e.gross := by
    rw [he.net_eq, hpenalty]
    rfl
  have hafter : t.pools.get term = some (a.afterExit user position p.2.toNat e) := by
    rw [he.pools, Table.get_set_self]
  refine ⟨a, a.afterExit user position p.2.toNat e, ?_⟩
  exact
    { before := he.pool
      after := hafter
      shares_le := by
        show p.2.toNat ≤ a.pool.total_shares
        omega
      total_shares := rfl
      index_ray := by
        show a.pool.index_ray + e.penalty * RAY / (a.pool.total_shares - p.2.toNat) = _
        rw [hpenalty, hgross]
        rfl
      paid := by
        rw [he.scad, s.scad.get_move_dst (by simp), hnet, hgross]
        rfl
      early := by
        intro now hnow b q hb hq
        rw [hafter] at hb
        cases hb
        rw [PoolAccounts.afterExit, Table.get_set_self] at hq
        cases hq
        exact hnow a position he.pool he.found }

/-- The parts one after the other. -/
theorem parts_paid {parts : List Part} {a : PoolAccounts} (i₀ : Nat) (hi : Inv s)
    (ha : s.pools.get term = some a) (hearly : ∀ p ∈ parts, EarlyAt s user term p.1)
    (hrun : run step s (parts.map (exitAct user term)) = some s') :
    s'.scad.get (.user user) = s.scad.get (.user user) +
        paidInParts RAY 10 a.pool.total_shares a.pool.index_ray (parts.map Part.shares) ∧
      ownGain user term i₀ s parts =
        gainInParts RAY 10 i₀ a.pool.total_shares a.pool.index_ray (parts.map Part.shares) := by
  induction parts generalizing s a with
  | nil =>
    cases hrun
    exact ⟨rfl, rfl⟩
  | cons p parts ih =>
    obtain ⟨t, hstep, hrest⟩ := run_cons_eq_some.mp hrun
    obtain ⟨b, _, hpart⟩ := part_paid hi (hearly p List.mem_cons_self) hstep
    have heq : b = a := Option.some.inj (hpart.before.symm.trans ha)
    subst heq
    have hearly' : ∀ q ∈ parts, EarlyAt t user term q.1 := fun q hq =>
      hpart.early q.1 (hearly q (List.mem_cons_of_mem p hq))
    obtain ⟨hpaid, hgain⟩ := ih (inv_step hi hstep) hpart.after hearly' hrest
    rw [hpart.total_shares, hpart.index_ray] at hpaid hgain
    refine ⟨?_, ?_⟩
    · rw [hpaid, hpart.paid, List.map_cons, paidInParts]
      omega
    · simp only [ownGain, hstep, List.map_cons, gainInParts, hgain]
      rw [VaultState.indexAt, ha]

/-- What leaving in parts pays, against leaving at once: no more than a unit
for each part and nine tenths of what the penalties of the earlier parts
added to the worth of the later ones; and in all no more than the shares
were worth at the start, without a penalty. -/
theorem split_exit_le {parts : List Part} {whole : Part} {s₁ : VaultState} (hi : Inv s)
    (hearly : ∀ p ∈ whole :: parts, EarlyAt s user term p.1)
    (hshares : whole.shares = (parts.map Part.shares).sum)
    (hwhole : step s (exitAct user term whole) = some s₁)
    (hparts : run step s (parts.map (exitAct user term)) = some s') :
    s'.scad.get (.user user) ≤ s₁.scad.get (.user user) + parts.length +
        (9 * ownGain user term (s.indexAt term) s parts) ⌈/⌉ (10 * RAY) ∧
      s'.scad.get (.user user) * RAY ≤
        s.scad.get (.user user) * RAY + whole.shares * s.indexAt term := by
  obtain ⟨a, _, hpart⟩ := part_paid hi (hearly whole List.mem_cons_self) hwhole
  have hindex : s.indexAt term = a.pool.index_ray := by rw [VaultState.indexAt, hpart.before]
  obtain ⟨hpaid, hgain⟩ := parts_paid a.pool.index_ray hi hpart.before
    (fun p hp => hearly p (List.mem_cons_of_mem whole hp)) hparts
  rw [hindex, hgain, hpaid, hpart.paid, hshares]
  have hsum : (parts.map Part.shares).sum ≤ a.pool.total_shares := hshares ▸ hpart.shares_le
  refine ⟨?_, ?_⟩
  · have hle := paidInParts_le (r := RAY) (d := 10) (t := a.pool.total_shares)
      (i := a.pool.index_ray) (by decide) (by decide) (parts.map Part.shares)
    rw [List.length_map, show 10 - 1 = 9 from rfl] at hle
    omega
  · have hle := paidInParts_mul_le (r := RAY) (d := 10) (i := a.pool.index_ray)
      (parts.map Part.shares) hsum
    rw [Nat.add_mul]
    omega

end Scadium.Programs.Vault

namespace Scadium.Vault

open Scadium.Lib Scadium.Lib.EarlyExit Scadium.Prisma Scadium.Prisma.Committed Scadium.Shared

variable {s s' : VaultSystem} {userId : UserId} {positionId : PositionId}

/-- When, and how many shares. -/
abbrev Part := Time × Nat

def Part.shares (p : Part) : Nat := p.2

def exitAct (userId : UserId) (positionId : PositionId) (p : Part) : Act :=
  .withdraw userId positionId (some p.2) p.1

/-- The index of the position's pool. -/
def VaultSystem.indexAt (s : VaultSystem) (positionId : PositionId) : Nat :=
  match s.vault.positions.get positionId with
  | some q =>
      match s.vault.pools.get q.poolId with
      | some p => p.indexRay
      | none => 0
  | none => 0

/-- The position is not mature. -/
def EarlyAt (s : VaultSystem) (positionId : PositionId) (now : Time) : Prop :=
  ∀ q, s.vault.positions.get positionId = some q → now < q.maturesAt

/-- What the index has gained above `i₀`, on the shares of each part when its
turn comes. -/
def ownGain (userId : UserId) (positionId : PositionId) (i₀ : Nat) : VaultSystem → List Part → Nat
  | _, [] => 0
  | s, p :: ps => p.shares * (s.indexAt positionId - i₀) +
      match step s (exitAct userId positionId p) with
      | some s' => ownGain userId positionId i₀ s' ps
      | none => 0

def VaultSystem.scadOf (s : VaultSystem) (userId : UserId) : Int := s.vault.db.balance userId .scad

/-- One part; nothing is left of the position, or of its pool what the next
part meets. -/
structure PartPaid (s s' : VaultSystem) (userId : UserId) (positionId : PositionId)
    (shares : Nat) (q : VaultPosition) (p : VaultPool) : Prop where
  position : s.vault.positions.get positionId = some q
  pool : s.vault.pools.get q.poolId = some p
  shares_le : shares ≤ p.totalShares
  paid : s'.scadOf userId = s.scadOf userId + EarlyExit.paid 10 (shares * p.indexRay / VAULT.RAY)
  after : s'.vault.positions.get positionId = none ∨
    ∃ q' p', s'.vault.positions.get positionId = some q' ∧ q'.maturesAt = q.maturesAt ∧
      s'.vault.pools.get q'.poolId = some p' ∧ p'.totalShares = p.totalShares - shares ∧
      p'.indexRay = raised VAULT.RAY 10 p.totalShares p.indexRay shares

theorem part_paid (hi : Tally s) {part : Part} (hearly : EarlyAt s positionId part.1)
    (h : step s (exitAct userId positionId part) = some s') :
    ∃ q p, PartPaid s s' userId positionId part.shares q p := by
  simp only [exitAct, step] at h
  split at h
  case h_2 => cases h
  case h_1 r hr =>
    cases h
    obtain ⟨q, p, hw, rfl, hburned, hrearly⟩ := withdraw_ok hr
    have hshares : r.2.sharesBurned = part.2 := by
      simp only [Option.getD_some] at hburned
      omega
    have hearly' : r.2.early = true := by
      rw [hrearly]
      exact decide_eq_true (hearly q hw.found)
    have hnet : r.2.netAssets = EarlyExit.paid 10 (part.2 * p.indexRay / VAULT.RAY) := by
      rw [hw.net, hw.penalty, if_pos hearly', hw.gross, hshares]
      rfl
    have htotal := hw.burned_le_total (hi.shares _ p hw.inPool)
    refine ⟨q, p, ?_⟩
    exact
      { position := hw.found, pool := hw.inPool
        shares_le := by
          show part.2 ≤ p.totalShares
          omega
        paid := by
          have hpaid := hw.paid
          rw [hnet] at hpaid
          exact hpaid
        after := by
          have hle := hw.burned_le
          have hposition : r.1.positions.get positionId = if q.shares - part.2 = 0 then none
              else some { q with
                shares := q.shares - part.2, principal := q.principal - principalPortion q part.2 } := by
            rw [hw.positions, hshares]
            unfold exitPosition
            split
            · exact Table.get_erase_self _
            · exact Table.get_set_self _
          by_cases hall : q.shares - part.2 = 0
          · rw [if_pos hall] at hposition
            exact .inl hposition
          · rw [if_neg hall] at hposition
            -- the rest of the position is among the shares left
            have hmine := s.vault.positions.le_sum
              (g := fun k => if k.poolId = q.poolId then k.shares else 0) hw.found
            rw [if_pos rfl] at hmine
            have hsum : s.vault.positions.sum
                (fun k => if k.poolId = q.poolId then k.shares else 0) = p.totalShares :=
              hi.shares _ p hw.inPool
            have hleft : p.totalShares - part.2 ≠ 0 := by omega
            refine .inr ⟨_, p.exit r.2.sharesBurned r.2.netAssets r.2.penaltyAssets, hposition, rfl,
              ?_, ?_, ?_⟩
            · show r.1.pools.get q.poolId = _
              rw [hw.pools, Table.get_set_self]
            · rw [p.exit_totalShares, hshares]
              rfl
            · have hpenalty : r.2.penaltyAssets = part.2 * p.indexRay / VAULT.RAY / 10 := by
                rw [hw.penalty, if_pos hearly', hw.gross, hshares]
              rw [hpenalty, hshares]
              unfold VaultPool.exit
              simp only
              rw [if_neg hleft, applyAccrual_eq]
              rfl }

/-- A position that is gone pays no further part. -/
theorem step_gone {part : Part} (hnone : s.vault.positions.get positionId = none) :
    step s (exitAct userId positionId part) = none := by
  have herror : withdraw s.vault userId positionId (some part.2) part.1 =
      .error (.notFound "Vault position not found") := by
    simp only [withdraw, hnone, orThrow]
    rfl
  simp only [exitAct, step, herror]

theorem parts_paid {parts : List Part} {q : VaultPosition} {p : VaultPool} (i₀ : Nat)
    (hi : Tally s) (hq : s.vault.positions.get positionId = some q)
    (hp : s.vault.pools.get q.poolId = some p)
    (hearly : ∀ part ∈ parts, EarlyAt s positionId part.1)
    (hrun : run step s (parts.map (exitAct userId positionId)) = some s') :
    s'.scadOf userId = s.scadOf userId +
        paidInParts VAULT.RAY 10 p.totalShares p.indexRay (parts.map Part.shares) ∧
      ownGain userId positionId i₀ s parts =
        gainInParts VAULT.RAY 10 i₀ p.totalShares p.indexRay (parts.map Part.shares) := by
  induction parts generalizing s q p with
  | nil =>
    cases hrun
    exact ⟨by simp [paidInParts], rfl⟩
  | cons part parts ih =>
    obtain ⟨t, hstep, hrest⟩ := run_cons_eq_some.mp hrun
    obtain ⟨q₀, p₀, hpart⟩ := part_paid hi (hearly part List.mem_cons_self) hstep
    have hq₀ : q₀ = q := Option.some.inj (hpart.position.symm.trans hq)
    subst hq₀
    have hp₀ : p₀ = p := Option.some.inj (hpart.pool.symm.trans hp)
    subst hp₀
    have hindex : s.indexAt positionId = p₀.indexRay := by
      simp only [VaultSystem.indexAt, hq, hp]
    have hpaid := hpart.paid
    rcases hpart.after with hgone | ⟨_, _, hq', hmature, hp', hshares', hindex'⟩
    · -- the position is gone, so this was the last part
      cases parts with
      | nil =>
        cases hrest
        refine ⟨?_, ?_⟩
        · rw [hpaid]
          simp [paidInParts]
        · simp only [ownGain, hstep, List.map_cons, List.map_nil, gainInParts, hindex]
      | cons =>
        rw [List.map_cons, run_cons_eq_some] at hrest
        obtain ⟨u, hu, -⟩ := hrest
        rw [step_gone hgone] at hu
        cases hu
    · have hearly' : ∀ part' ∈ parts, EarlyAt t positionId part'.1 := by
        intro part' hmem k hk
        rw [hq'] at hk
        cases hk
        rw [hmature]
        exact hearly part' (List.mem_cons_of_mem part hmem) q₀ hq
      obtain ⟨hrestPaid, hrestGain⟩ := ih (tally_step hi hstep) hq' hp' hearly' hrest
      rw [hshares', hindex'] at hrestPaid hrestGain
      refine ⟨?_, ?_⟩
      · rw [hrestPaid, hpaid, List.map_cons, paidInParts]
        push_cast
        omega
      · simp only [ownGain, hstep, List.map_cons, gainInParts, hrestGain, hindex]

/-- The same bounds as in the program. -/
theorem split_exit_le {parts : List Part} {whole : Part} {s₁ : VaultSystem} (hi : Tally s)
    (hearly : ∀ part ∈ whole :: parts, EarlyAt s positionId part.1)
    (hshares : whole.shares = (parts.map Part.shares).sum)
    (hwhole : step s (exitAct userId positionId whole) = some s₁)
    (hparts : run step s (parts.map (exitAct userId positionId)) = some s') :
    s'.scadOf userId ≤ s₁.scadOf userId + parts.length +
        ((9 * ownGain userId positionId (s.indexAt positionId) s parts) ⌈/⌉ (10 * VAULT.RAY) : Nat) ∧
      (s'.scadOf userId - s.scadOf userId) * VAULT.RAY ≤
        (whole.shares * s.indexAt positionId : Nat) := by
  obtain ⟨q, p, hpart⟩ := part_paid hi (hearly whole List.mem_cons_self) hwhole
  have hindex : s.indexAt positionId = p.indexRay := by
    simp only [VaultSystem.indexAt, hpart.position, hpart.pool]
  obtain ⟨hpaid, hgain⟩ := parts_paid p.indexRay hi hpart.position hpart.pool
    (fun part hmem => hearly part (List.mem_cons_of_mem whole hmem)) hparts
  rw [hindex, hgain, hpaid, hpart.paid, hshares]
  have hsum : (parts.map Part.shares).sum ≤ p.totalShares := hshares ▸ hpart.shares_le
  refine ⟨?_, ?_⟩
  · have hle := paidInParts_le (r := VAULT.RAY) (d := 10) (t := p.totalShares)
      (i := p.indexRay) (by decide) (by decide) (parts.map Part.shares)
    rw [List.length_map, show 10 - 1 = 9 from rfl] at hle
    omega
  · have hle := paidInParts_mul_le (r := VAULT.RAY) (d := 10) (i := p.indexRay)
      (parts.map Part.shares) hsum
    rw [show ∀ x y : Int, x + y - x = y by intros; omega]
    exact_mod_cast hle

/-! ## Both vaults -/

theorem tally_run {db : Db} {pools : Table PoolId VaultPool} {es : List Act}
    (hpools : ∀ id p, pools.get id = some p → p.Genesis)
    (hrun : run step (.initial db pools) es = some s) : Tally s :=
  run_invariant (fun _ _ _ hi h => tally_step hi h) (inv_initial db hpools).toTally hrun

/-- From every state that the program or the off-chain vault reaches, an
early exit in parts pays, against the exit at once, no more than a unit for
each part and nine tenths of what the parts' own penalties added to the
worth of the parts after them; and no more than the shares were worth at the
start, without a penalty. -/
theorem split_exit_bounded :
    (∀ {house : Programs.Vault.House} {scad : Balances Programs.Vault.Owner}
      {es : List Programs.Vault.Act} {s s₁ s' : Programs.Vault.VaultState}
      {user : Programs.Vault.Pubkey} {term : Programs.Vault.Term}
      {whole : Programs.Vault.Part} {parts : List Programs.Vault.Part},
      run Programs.Vault.step (.initial house scad) es = some s →
      (∀ p ∈ whole :: parts, Programs.Vault.EarlyAt s user term p.1) →
      whole.shares = (parts.map Programs.Vault.Part.shares).sum →
      Programs.Vault.step s (Programs.Vault.exitAct user term whole) = some s₁ →
      run Programs.Vault.step s (parts.map (Programs.Vault.exitAct user term)) = some s' →
      s'.scad.get (.user user) ≤ s₁.scad.get (.user user) + parts.length +
          (9 * Programs.Vault.ownGain user term (s.indexAt term) s parts) ⌈/⌉
            (10 * Programs.Vault.RAY) ∧
        s'.scad.get (.user user) * Programs.Vault.RAY ≤
          s.scad.get (.user user) * Programs.Vault.RAY + whole.shares * s.indexAt term) ∧
    ∀ {db : Db} {pools : Table PoolId VaultPool} {es : List Act} {s s₁ s' : VaultSystem}
      {userId : UserId} {positionId : PositionId} {whole : Part} {parts : List Part},
      (∀ id p, pools.get id = some p → p.Genesis) →
      run step (.initial db pools) es = some s →
      (∀ part ∈ whole :: parts, EarlyAt s positionId part.1) →
      whole.shares = (parts.map Part.shares).sum →
      step s (exitAct userId positionId whole) = some s₁ →
      run step s (parts.map (exitAct userId positionId)) = some s' →
      s'.scadOf userId ≤ s₁.scadOf userId + parts.length +
          ((9 * ownGain userId positionId (s.indexAt positionId) s parts) ⌈/⌉
            (10 * VAULT.RAY) : Nat) ∧
        (s'.scadOf userId - s.scadOf userId) * VAULT.RAY ≤
          (whole.shares * s.indexAt positionId : Nat) := by
  refine ⟨?_, ?_⟩
  · intro house scad es s s₁ s' user term whole parts hrun hearly hshares hwhole hparts
    exact Programs.Vault.split_exit_le (Programs.Vault.inv_run hrun) hearly hshares hwhole hparts
  · intro db pools es s s₁ s' userId positionId whole parts hpools hrun hearly hshares hwhole
      hparts
    exact split_exit_le (tally_run hpools hrun) hearly hshares hwhole hparts

/-! ## Two halves -/

/-- A million shares beside the locked minimum; and the only position of an
off-chain pool. -/
def halvesActs : List Programs.Vault.Act :=
  [.initVaultPool 1 30 1000, .vaultDeposit 7 30 0 1001000]

def halves : List Programs.Vault.Part := [(0, 500000), (0, 500000)]

def offChainHalves : List Part := [(0, 500000000), (0, 500000000)]

/-- Whether a position on chain is not mature at time 0. -/
def earlyOnChain (s : Programs.Vault.VaultState) : Bool :=
  (s.pools.get 30).all fun a => (a.positions.get 7).all fun p => decide (0 < p.matures_at)

theorem earlyAt_of_earlyOnChain {s : Programs.Vault.VaultState} (h : earlyOnChain s = true) :
    Programs.Vault.EarlyAt s 7 30 0 := by
  intro a p ha hp
  unfold earlyOnChain at h
  rw [ha] at h
  simp only [Option.all_some, hp] at h
  exact of_decide_eq_true h

theorem halves_on_chain : ∃ s s₁ s', run Programs.Vault.step
      (.initial Programs.Vault.sampleHouse Programs.Vault.sampleScad) halvesActs = some s ∧
    Programs.Vault.EarlyAt s 7 30 0 ∧
    Programs.Vault.step s (Programs.Vault.exitAct 7 30 (0, 1000000)) = some s₁ ∧
    run Programs.Vault.step s (halves.map (Programs.Vault.exitAct 7 30)) = some s' ∧
    s₁.scad.get (.user 7) + 2 < s'.scad.get (.user 7) := by
  have hsome : (run Programs.Vault.step (.initial Programs.Vault.sampleHouse
      Programs.Vault.sampleScad) halvesActs).any (fun s =>
        earlyOnChain s &&
        (Programs.Vault.step s (Programs.Vault.exitAct 7 30 (0, 1000000))).any fun s₁ =>
          (run Programs.Vault.step s (halves.map (Programs.Vault.exitAct 7 30))).any fun s' =>
            decide (s₁.scad.get (.user 7) + 2 < s'.scad.get (.user 7))) = true := by
    decide +kernel
  obtain ⟨s, hs, h⟩ := (Option.any_eq_true _ _).mp hsome
  obtain ⟨hearly, h⟩ := (Bool.and_eq_true _ _).mp h
  obtain ⟨s₁, hs₁, h⟩ := (Option.any_eq_true _ _).mp h
  obtain ⟨s', hs', h⟩ := (Option.any_eq_true _ _).mp h
  exact ⟨s, s₁, s', hs, earlyAt_of_earlyOnChain hearly, hs₁, hs', of_decide_eq_true h⟩

theorem halves_off_chain : ∃ s s₁ s',
    run step (.initial sampleDb samplePools) [.deposit 1 1 1000000000 0 101] = some s ∧
      EarlyAt s 101 0 ∧ step s (exitAct 1 101 (0, 1000000000)) = some s₁ ∧
      run step s (offChainHalves.map (exitAct 1 101)) = some s' ∧
      s₁.scadOf 1 + 2 < s'.scadOf 1 := by
  have hsome : (run step (.initial sampleDb samplePools) [.deposit 1 1 1000000000 0 101]).any
      (fun s => (s.vault.positions.get 101).all (fun q => decide (0 < q.maturesAt)) &&
        (step s (exitAct 1 101 (0, 1000000000))).any fun s₁ =>
          (run step s (offChainHalves.map (exitAct 1 101))).any fun s' =>
            decide (s₁.scadOf 1 + 2 < s'.scadOf 1)) = true := by
    decide +kernel
  obtain ⟨s, hs, h⟩ := (Option.any_eq_true _ _).mp hsome
  obtain ⟨hearly, h⟩ := (Bool.and_eq_true _ _).mp h
  obtain ⟨s₁, hs₁, h⟩ := (Option.any_eq_true _ _).mp h
  obtain ⟨s', hs', h⟩ := (Option.any_eq_true _ _).mp h
  refine ⟨s, s₁, s', hs, ?_, hs₁, hs', of_decide_eq_true h⟩
  intro q hq
  rw [hq] at hearly
  exact of_decide_eq_true hearly

/-- Two halves pay more than the whole, by far more than a unit for each. -/
theorem halves_pay_more :
    (∃ s s₁ s', run Programs.Vault.step (.initial Programs.Vault.sampleHouse
        Programs.Vault.sampleScad) halvesActs = some s ∧
      Programs.Vault.EarlyAt s 7 30 0 ∧
      Programs.Vault.step s (Programs.Vault.exitAct 7 30 (0, 1000000)) = some s₁ ∧
      run Programs.Vault.step s (halves.map (Programs.Vault.exitAct 7 30)) = some s' ∧
      s₁.scad.get (.user 7) + 2 < s'.scad.get (.user 7)) ∧
    ∃ s s₁ s', run step (.initial sampleDb samplePools) [.deposit 1 1 1000000000 0 101] = some s ∧
      EarlyAt s 101 0 ∧ step s (exitAct 1 101 (0, 1000000000)) = some s₁ ∧
      run step s (offChainHalves.map (exitAct 1 101)) = some s' ∧
      s₁.scadOf 1 + 2 < s'.scadOf 1 := ⟨halves_on_chain, halves_off_chain⟩

/-- But not more than they were worth. -/
theorem split_exit_bounded_sample :
    (∃ s s', run Programs.Vault.step s (halves.map (Programs.Vault.exitAct 7 30)) = some s' ∧
      s'.scad.get (.user 7) * Programs.Vault.RAY ≤
        s.scad.get (.user 7) * Programs.Vault.RAY + 1000000 * s.indexAt 30) ∧
    ∃ s s', run step s (offChainHalves.map (exitAct 1 101)) = some s' ∧
      (s'.scadOf 1 - s.scadOf 1) * VAULT.RAY ≤ (1000000000 * s.indexAt 101 : Nat) := by
  refine ⟨?_, ?_⟩
  · obtain ⟨s, s₁, s', hs, hearly, hwhole, hparts, -⟩ := halves_on_chain
    have hall : ∀ p ∈ ((0, 1000000) : Programs.Vault.Part) :: halves,
        Programs.Vault.EarlyAt s 7 30 p.1 := by
      intro p hp
      have hzero : p.1 = 0 := by
        simp only [halves, List.mem_cons, List.not_mem_nil, or_false] at hp
        rcases hp with rfl | rfl | rfl <;> rfl
      exact hzero ▸ hearly
    exact ⟨s, s', hparts, (split_exit_bounded.1 hs hall rfl hwhole hparts).2⟩
  · obtain ⟨s, _, s', hs, hearly, hwhole, hparts, -⟩ := halves_off_chain
    have hall : ∀ part ∈ ((0, 1000000000) : Part) :: offChainHalves, EarlyAt s 101 part.1 := by
      intro part hpart
      have hzero : part.1 = 0 := by
        simp only [offChainHalves, List.mem_cons, List.not_mem_nil, or_false] at hpart
        rcases hpart with rfl | rfl | rfl <;> rfl
      exact hzero ▸ hearly
    exact ⟨s, s', hparts,
      (split_exit_bounded.2 samplePools_genesis hs hall rfl hwhole hparts).2⟩

end Scadium.Vault
