/-
Scadium.Programs.Vault.Safety — no operation of the term pools overflows,
truncates, clamps or saturates, and no withdrawal lacks tokens.

Each helper and each instruction has one lemma on its record of operations;
`exec_safe` puts them together for every transaction from a state that
meets the invariant. The two theorems on runs are at the end.
-/
import Scadium.Programs.Vault.Solvency

namespace Scadium.Programs.Vault

open Scadium.Lib Scadium.Lib.ShareIndex Traced

/-! ## Bounds -/

theorem mul_ray_le {n : Nat} (h : n ≤ U64_MAX) : n * RAY ≤ U128_MAX :=
  (Nat.mul_le_mul_right RAY h).trans (by decide)

theorem mul_u64_le {m n : Nat} (hm : m ≤ U64_MAX) (hn : n ≤ U64_MAX) : m * n ≤ U128_MAX :=
  (Nat.mul_le_mul hm hn).trans (by decide)

theorem u64_add_le {m n : Nat} (hm : m ≤ U64_MAX) (hn : n ≤ U64_MAX) : m + n ≤ U128_MAX :=
  (Nat.add_le_add hm hn).trans (by decide)

variable {a : PoolAccounts} {held : Nat}

/-- A share is worth at least a unit. -/
theorem PoolInv.shares_le_assets (hi : PoolInv a held) :
    a.pool.total_shares ≤ a.pool.total_assets := by
  have hcovered := hi.covered
  unfold Covers at hcovered
  refine Nat.le_of_mul_le_mul_right ?_ (show 0 < RAY by decide)
  calc a.pool.total_shares * RAY ≤ a.pool.total_shares * a.pool.index_ray :=
        Nat.mul_le_mul_left _ hi.index
    _ ≤ a.pool.total_assets * RAY := by omega

theorem PoolInv.shares_fit (hi : PoolInv a held) : a.pool.total_shares ≤ U64_MAX :=
  hi.shares_le_assets.trans hi.fits

/-- The product that values shares. -/
theorem PoolInv.worth_fits (hi : PoolInv a held) {shares : Nat}
    (hle : shares ≤ a.pool.total_shares) : shares * a.pool.index_ray ≤ U128_MAX := by
  have hcovered := hi.covered.mono hle
  have hassets := mul_ray_le hi.fits
  unfold Covers at hcovered
  omega

/-- An index at which the assets of a `u64` cover a share. -/
theorem index_fits {assets n i : Nat} (h : Covers RAY assets 0 n i) (hn : 0 < n)
    (hfits : assets ≤ U64_MAX) : i ≤ U128_MAX := by
  have hassets := mul_ray_le hfits
  have hone : i ≤ n * i := Nat.le_mul_of_pos_left i hn
  unfold Covers at h
  omega

/-! ## Vault math -/

theorem shares_for_deposit_safe {assets : Nat} (h : assets ≤ U64_MAX) (index_ray : Nat) :
    (shares_for_deposit assets index_ray).Safe := by
  unfold shares_for_deposit
  split
  · exact safe_pure 0
  · rw [safe_bind, safe_mul]
    refine ⟨mul_ray_le h, ?_⟩
    intro scaled _
    rw [safe_div]
    omega

theorem assets_for_shares_safe {shares index_ray : Nat} (h : shares * index_ray ≤ U128_MAX)
    (hfits : shares * index_ray / RAY ≤ U64_MAX) : (assets_for_shares shares index_ray).Safe := by
  unfold assets_for_shares
  split
  · exact safe_pure 0
  · rw [safe_bind, safe_mul]
    refine ⟨h, ?_⟩
    intro scaled hscaled
    obtain ⟨-, rfl⟩ := mul_ok.mp hscaled
    rw [safe_bind, safe_div]
    refine ⟨by decide, ?_⟩
    intro quotient hquotient
    obtain ⟨-, rfl⟩ := div_ok.mp hquotient
    exact safe_clamp.mpr hfits

theorem apply_accrual_safe {index_ray total_shares yield_assets : Nat}
    (h : yield_assets ≤ U64_MAX)
    (hfits : 0 < total_shares → index_ray + yield_assets * RAY / total_shares ≤ U128_MAX) :
    (apply_accrual index_ray total_shares yield_assets).Safe := by
  unfold apply_accrual
  split
  case isTrue => exact safe_pure index_ray
  case isFalse hpos =>
    rw [safe_bind, safe_mul]
    refine ⟨mul_ray_le h, ?_⟩
    intro scaled hscaled
    obtain ⟨-, rfl⟩ := mul_ok.mp hscaled
    rw [safe_bind, safe_div]
    refine ⟨by omega, ?_⟩
    intro raise hraise
    obtain ⟨-, rfl⟩ := div_ok.mp hraise
    exact safe_add.mpr (hfits (by omega))

theorem early_exit_penalty_safe {assets : Nat} (h : assets ≤ U64_MAX) :
    (early_exit_penalty assets).Safe := by
  unfold early_exit_penalty
  rw [safe_bind, safe_mul]
  refine ⟨mul_u64_le h (by decide), ?_⟩
  intro scaled hscaled
  obtain ⟨-, rfl⟩ := mul_ok.mp hscaled
  rw [safe_bind, safe_div]
  refine ⟨by decide, ?_⟩
  intro penalty hpenalty
  obtain ⟨-, rfl⟩ := div_ok.mp hpenalty
  exact safe_cast.mpr ((penaltyOf_le assets).trans h)

theorem mintedShares_safe (first : Bool) (shares : Nat) : (mintedShares first shares).Safe := by
  unfold mintedShares
  split
  · rw [safe_bind]
    refine ⟨safe_lift _, ?_⟩
    intro _ hmin
    have hlt := require_ok.mp hmin
    exact safe_sub.mpr (by omega)
  · exact safe_pure shares

theorem penaltyAt_safe {gross : Nat} (h : gross ≤ U64_MAX) (now : Int64) (matures_at : Int) :
    (penaltyAt now matures_at gross).Safe := by
  unfold penaltyAt
  split
  · exact early_exit_penalty_safe h
  · exact safe_pure 0

theorem principalPortion_safe {shares pos_shares pos_principal : Nat} (hpos : 0 < shares)
    (hle : shares ≤ pos_shares) (hshares : shares ≤ U64_MAX) (hprincipal : pos_principal ≤ U64_MAX) :
    (principalPortion shares pos_shares pos_principal).Safe := by
  unfold principalPortion
  split
  · exact safe_pure pos_principal
  · rw [safe_bind, safe_mul]
    refine ⟨mul_u64_le hprincipal hshares, ?_⟩
    intro scaled hscaled
    obtain ⟨-, rfl⟩ := mul_ok.mp hscaled
    rw [safe_bind, safe_div]
    refine ⟨by omega, ?_⟩
    intro portion hportion
    obtain ⟨-, rfl⟩ := div_ok.mp hportion
    exact safe_cast.mpr ((principal_share_le pos_principal hle).trans hprincipal)

/-! ## Instructions -/

variable {s : VaultState} {user : Pubkey} {term : Term} {now : Int64}

theorem vault_deposit_safe (hi : Inv s) {amount : Nat} (hamount : amount ≤ U64_MAX) :
    (vault_deposit s user term now amount).Safe := by
  simp only [vault_deposit, safe_bind, safe_lift, true_and, outcome_lift, getPool_ok, require_ok,
    transfer_ok, safe_pure, implies_true, and_true]
  intro a ha _ _
  have hpool := hi term a ha
  have hheld := hpool.held
  refine ⟨shares_for_deposit_safe hamount _, ?_⟩
  intro shares hshares _ _
  refine ⟨mintedShares_safe _ _, ?_⟩
  rintro _ hminted _ ⟨-, hroom, -⟩
  have hvault := hroom (by simp)
  -- the shares are no more than the amount, the index being at least the scalar
  have hbought : shares ≤ amount := by
    rw [shares_for_deposit_ok hshares]
    refine Nat.div_le_of_le_mul ?_
    rw [Nat.mul_comm a.pool.index_ray]
    exact Nat.mul_le_mul_left _ hpool.index
  have hminted' := mintedShares_ok hminted
  have hposition : (a.position user).shares ≤ U64_MAX := by
    unfold PoolAccounts.position
    cases hp : a.positions.get user with
    | none => exact Nat.zero_le _
    | some position =>
      have hle := hpool.shares_le hp
      have hfits := hpool.shares_fit
      show position.shares ≤ U64_MAX
      omega
  have hprincipal := hpool.position_principal_le user
  refine ⟨safe_add.mpr (u64_add_le hpool.shares_fit (hbought.trans hamount)), ?_⟩
  intro total_shares _
  refine ⟨safe_add.mpr (by omega), ?_⟩
  intro total_assets _ _ _
  refine ⟨safe_add.mpr (u64_add_le hposition (by omega)), ?_⟩
  intro pos_shares _
  exact safe_add.mpr (by unfold PoolAccounts.position at hprincipal; omega)

theorem exitAmounts_safe {pool : VaultPool} {position : UserVaultPosition} {shares : Nat}
    (hpos : 0 < shares) (hle : shares ≤ position.shares) (hshares : shares ≤ U64_MAX)
    (hprincipal : position.principal ≤ U64_MAX) (hworth : shares * pool.index_ray ≤ U128_MAX)
    (hfits : shares * pool.index_ray / RAY ≤ U64_MAX) :
    (exitAmounts pool position now shares).Safe := by
  simp only [exitAmounts, safe_bind, safe_pure, implies_true, and_true]
  refine ⟨assets_for_shares_safe hworth hfits, ?_⟩
  intro gross hgross
  have hvalue : gross ≤ U64_MAX := assets_for_shares_ok hgross ▸ Nat.min_le_right _ _
  refine ⟨penaltyAt_safe hvalue _ _, ?_⟩
  intro penalty hpenalty
  have hle' : penalty ≤ gross := penaltyAt_ok hvalue hpenalty ▸ penaltyDue_le _ _ _
  refine ⟨safe_sub.mpr hle', ?_⟩
  intro net _
  exact principalPortion_safe hpos hle hshares hprincipal

theorem vault_withdraw_safe (hi : Inv s) {shares : Nat} (hshares : shares ≤ U64_MAX) :
    (vault_withdraw s user term now shares).Safe := by
  simp only [vault_withdraw, safe_bind, safe_lift, true_and, outcome_lift, getPool_ok,
    getPosition_ok, require_ok, safe_pure, implies_true, and_true]
  intro a ha position hp _ hpos _ _ _ hle
  have hpool := hi term a ha
  have hmine := hpool.shares_le hp
  have hall : shares ≤ a.pool.total_shares := by omega
  have hprincipal := (hpool.principal_le hp).trans hpool.fits
  refine ⟨exitAmounts_safe hpos hle hshares hprincipal (hpool.worth_fits hall)
    ((hpool.worth_le hall).trans hpool.fits), ?_⟩
  intro e he
  obtain ⟨hgross, hpenalty, _, hportion⟩ := exitAmounts_ok hpos hle he
  rw [hpool.clamp_eq hall] at hgross
  have hkept := penaltyDue_le now position.matures_at e.gross
  rw [← hpenalty] at hkept
  have hassets := hpool.worth_le hall
  have hfits := hpool.fits
  have hfloor : (e.net + e.penalty) * RAY ≤ shares * a.pool.index_ray := by
    rw [show e.net + e.penalty = shares * a.pool.index_ray / RAY by omega]
    exact Nat.div_mul_le_self _ _
  have hcovered := hpool.covered.exit hall hfloor (Nat.le_refl _)
  refine ⟨?_, ?_⟩
  · simp only [VaultPool.exit, safe_bind, safe_pure, implies_true, and_true]
    refine ⟨safe_sub.mpr hall, ?_⟩
    intro left hleft
    obtain ⟨-, rfl⟩ := sub_ok.mp hleft
    refine ⟨apply_accrual_safe (by omega) ?_, ?_⟩
    · intro hsome
      exact index_fits hcovered hsome (by omega)
    · intro index _
      exact safe_saturatingSub.mpr (by omega)
  · intro pool _
    simp only [UserVaultPosition.exit, safe_bind, safe_pure, implies_true, and_true]
    refine ⟨safe_sub.mpr hle, ?_⟩
    intro pos_shares _
    rw [hportion hprincipal]
    exact safe_sub.mpr (principal_share_le _ hle)

theorem vault_accrue_safe (hi : Inv s) {cosigner : Pubkey} {amount : Nat}
    (hamount : amount ≤ U64_MAX) : (vault_accrue s cosigner term amount).Safe := by
  simp only [vault_accrue, safe_bind, safe_lift, true_and, outcome_lift, getPool_ok, require_ok,
    transfer_ok, safe_pure, implies_true, and_true]
  rintro a ha _ _ _ _ _ _ _ hpos _ ⟨-, hroom, -⟩
  have hpool := hi term a ha
  have hvault := hroom (by simp)
  have hheld := hpool.held
  have hcovered := hpool.covered.raise (Nat.le_refl _) amount
  refine ⟨apply_accrual_safe hamount fun _ => index_fits hcovered hpos (by omega), ?_⟩
  intro index _
  exact safe_add.mpr (by omega)

/-- From a state that meets the invariant, every operation of every
transaction has its exact result. -/
theorem exec_safe (hi : Inv s) (act : Act) : (exec s act).Safe := by
  have hu64 (x : UInt64) : x.toNat ≤ U64_MAX := Nat.le_pred_of_lt x.toNat_lt
  cases act with
  | initVaultPool =>
    simp [exec, init_vault_pool, safe_bind]
  | vaultDeposit user term now amount =>
    simp only [exec, safe_bind, safe_pure, implies_true, and_true]
    exact vault_deposit_safe hi (hu64 amount)
  | vaultWithdraw user term now shares =>
    simp only [exec, safe_bind, safe_pure, implies_true, and_true]
    exact vault_withdraw_safe hi (hu64 shares)
  | vaultAccrue cosigner term amount =>
    simp only [exec, safe_bind, safe_pure, implies_true, and_true]
    exact vault_accrue_safe hi (hu64 amount)
  | setPaused => simp [exec, set_paused, safe_bind]
  | sendScad => simp [exec, safe_bind]

/-! ## Tokens -/

/-- The pool's token account holds what a withdrawal pays. -/
theorem vault_withdraw_not_short (hi : Inv s) {shares : Nat} :
    (vault_withdraw s user term now shares).Avoids (.token .insufficientFunds) := by
  simp only [vault_withdraw, avoids_bind, avoids_lift, outcome_lift, getPool_ok, getPosition_ok,
    require_ok, avoids_pure, implies_true, and_true]
  refine ⟨getPool_ne_token, ?_⟩
  intro a ha
  refine ⟨getPosition_ne_token, ?_⟩
  intro position hp
  refine ⟨require_ne_token, ?_⟩
  intro _ hpos
  refine ⟨require_ne_token, ?_⟩
  intro _ _
  refine ⟨require_ne_token, ?_⟩
  intro _ hle
  refine ⟨exitAmounts_avoids, ?_⟩
  intro e he
  refine ⟨vaultPool_exit_avoids, ?_⟩
  intro pool _
  refine ⟨by simp [UserVaultPosition.exit, avoids_bind], ?_⟩
  intro position' _
  have hpool := hi term a ha
  have hmine := hpool.shares_le hp
  have hworth : shares * a.pool.index_ray / RAY ≤ a.pool.total_assets :=
    hpool.worth_le (by omega)
  have hheld := hpool.held
  obtain ⟨_, -, _, -⟩ := exitAmounts_ok hpos hle he
  have hclamp := Nat.min_le_left (shares * a.pool.index_ray / RAY) U64_MAX
  have hpaid : e.net ≤ s.scad.get (.pool term) := by omega
  unfold payOut transfer
  split
  · rw [if_neg (by omega)]
    split <;> simp
  · simp
where
  getPool_ne_token {t : TokenError} : s.getPool term ≠ .error (.token t) := by
    unfold VaultState.getPool
    split <;> simp
  getPosition_ne_token {a : PoolAccounts} {t : TokenError} :
      a.getPosition user ≠ .error (.token t) := by
    unfold PoolAccounts.getPosition
    split <;> simp
  exitAmounts_avoids {pool : VaultPool} {position : UserVaultPosition} {shares : Nat}
      {t : TokenError} : (exitAmounts pool position now shares).Avoids (.token t) := by
    simp only [exitAmounts, avoids_bind, avoids_pure, avoids_sub, implies_true, and_true, true_and]
    refine ⟨?_, ?_⟩
    · unfold assets_for_shares
      split <;> simp [avoids_bind]
    · intro gross _
      refine ⟨?_, ?_⟩
      · unfold penaltyAt early_exit_penalty
        split <;> simp [avoids_bind]
      · intro penalty _ net _
        unfold principalPortion
        split <;> simp [avoids_bind]
  vaultPool_exit_avoids {pool : VaultPool} {shares : Nat} {e : Exit} {t : TokenError} :
      (pool.exit shares e).Avoids (.token t) := by
    simp only [VaultPool.exit, avoids_bind, avoids_pure, avoids_sub, avoids_saturatingSub,
      implies_true, and_true, true_and]
    intro left _
    unfold apply_accrual
    split <;> simp [avoids_bind]

/-! ## The first deposit -/

/-- The pool has shares. -/
def Opened (s : VaultState) (term : Term) : Prop :=
  ∃ a, s.pools.get term = some a ∧ 0 < a.pool.total_shares

theorem Opened.set {s s' : VaultState} {a : PoolAccounts} {j : Term} (ho : Opened s term)
    (hpools : s'.pools = s.pools.set j a) (hpos : j = term → 0 < a.pool.total_shares) :
    Opened s' term := by
  unfold Opened at *
  rw [hpools]
  by_cases hj : term = j
  · subst hj
    exact ⟨a, Table.get_set_self _, hpos rfl⟩
  · rw [Table.get_set_ne _ hj]
    exact ho

theorem opened_step {s s' : VaultState} {act : Act} (hi : Inv s) (ho : Opened s term)
    (h : step s act = some s') : Opened s' term := by
  obtain ⟨b, hb, hpos⟩ := ho
  have ho : Opened s term := ⟨b, hb, hpos⟩
  rcases exec_cases (step_ok.mp h) with hcalm | ⟨_, j, _, -, hnone, -, rfl⟩ |
    ⟨user, j, now, amount, a, shares, minted, matures_at, -, hd⟩ |
    ⟨user, j, now, shares, a, position, e, -, he⟩ | ⟨cosigner, j, amount, a, -, ha⟩
  · unfold Opened
    rw [hcalm.pools]
    exact ho
  · refine ho.set rfl ?_
    rintro rfl
    rw [hnone] at hb
    cases hb
  · refine ho.set hd.pools ?_
    intro _
    have hshares := hd.shares_pos
    show 0 < a.pool.total_shares + shares
    omega
  · refine ho.set he.pools ?_
    intro _
    have hmine := (hi j a he.pool).shares_le he.found
    have hle := he.shares_le
    show 0 < a.pool.total_shares - shares.toNat
    unfold MINIMUM_LIQUIDITY at hmine
    omega
  · refine ho.set ha.pools ?_
    intro _
    exact ha.shares_pos

theorem Deposited.opened {s s' : VaultState} {amount shares minted : Nat} {matures_at : Int}
    (h : Deposited s s' user term amount a shares minted matures_at) : Opened s' term := by
  refine ⟨a.afterDeposit user amount shares minted matures_at, ?_, ?_⟩
  · rw [h.pools, Table.get_set_self]
  · have hpos := h.shares_pos
    show 0 < a.pool.total_shares + shares
    omega

/-- A pool that was deposited into has shares from then on. -/
theorem opened_run {house : House} {scad : Balances Owner} {es : List Act} {amount : UInt64}
    (hrun : run step (.initial house scad) es = some s)
    (hmem : .vaultDeposit user term now amount ∈ es) : Opened s term := by
  obtain ⟨_, _, rfl⟩ := List.append_of_mem hmem
  obtain ⟨t, hbefore, hrest⟩ := run_append.mp hrun
  obtain ⟨u, hstep, hafter⟩ := run_cons_eq_some.mp hrest
  have hu : Inv u := inv_step (inv_run hbefore) hstep
  have hopened : Opened u term := by
    have hexec := step_ok.mp hstep
    simp only [exec, Traced.bind_ok, outcome_pure, Except.ok.injEq] at hexec
    obtain ⟨⟨_, _⟩, hdeposit, rfl⟩ := hexec
    obtain ⟨a, _, _, _, hd⟩ := vault_deposit_ok hdeposit
    exact hd.opened
  have hkept : ∀ s act s', Inv s ∧ Opened s term → step s act = some s' →
      Inv s' ∧ Opened s' term :=
    fun s act s' hs h => ⟨inv_step hs.1 h, opened_step hs.1 hs.2 h⟩
  exact (run_invariant hkept ⟨hu, hopened⟩ hafter).2

/-! ## A position at rest -/

/-- The user has the position, in a pool whose index is at least `index`. -/
def Rests (s : VaultState) (user : Pubkey) (term : Term) (position : UserVaultPosition)
    (index : Nat) : Prop :=
  ∃ a, s.pools.get term = some a ∧ a.positions.get user = some position ∧
    index ≤ a.pool.index_ray

/-- A deposit into the user's position, or a withdrawal from it. -/
def Act.Touches (user : Pubkey) (term : Term) : Act → Prop
  | .vaultDeposit u j _ _ | .vaultWithdraw u j _ _ => u = user ∧ j = term
  | _ => False

section Rest

variable {s' : VaultState} {position : UserVaultPosition} {index : Nat}

theorem rests_step {act : Act} (hr : Rests s user term position index)
    (hidle : ¬ act.Touches user term) (h : step s act = some s') :
    Rests s' user term position index := by
  obtain ⟨c, hc, hp, hle⟩ := hr
  -- a transaction that writes another pool, or this one to no loss
  have hset {j : Term} {b : PoolAccounts} (hpools : s'.pools = s.pools.set j b)
      (hkept : j = term → b.positions.get user = c.positions.get user ∧
        c.pool.index_ray ≤ b.pool.index_ray) : Rests s' user term position index := by
    unfold Rests
    rw [hpools]
    by_cases hj : term = j
    · subst hj
      exact ⟨b, Table.get_set_self _, (hkept rfl).1.trans hp, hle.trans (hkept rfl).2⟩
    · exact ⟨c, (Table.get_set_ne _ hj).trans hc, hp, hle⟩
  rcases exec_cases (step_ok.mp h) with hcalm | ⟨_, j, _, -, hnone, -, rfl⟩ |
    ⟨u, j, now, amount, a, shares, minted, matures_at, rfl, hd⟩ |
    ⟨u, j, now, shares, a, other, e, rfl, he⟩ | ⟨cosigner, j, amount, a, -, ha⟩
  · exact ⟨c, hcalm.pools ▸ hc, hp, hle⟩
  · refine hset rfl ?_
    rintro rfl
    cases hnone.symm.trans hc
  · refine hset hd.pools ?_
    rintro rfl
    cases hd.pool.symm.trans hc
    exact ⟨Table.get_set_ne _ fun hu => hidle ⟨hu.symm, rfl⟩, Nat.le_refl _⟩
  · refine hset he.pools ?_
    rintro rfl
    cases he.pool.symm.trans hc
    exact ⟨Table.get_set_ne _ fun hu => hidle ⟨hu.symm, rfl⟩, Nat.le_add_right _ _⟩
  · refine hset ha.pools ?_
    rintro rfl
    cases ha.pool.symm.trans hc
    exact ⟨rfl, Nat.le_add_right _ _⟩

theorem assets_for_shares_plain {shares index_ray : Nat} :
    (assets_for_shares shares index_ray).Plain := by
  unfold assets_for_shares
  split <;> simp [plain_bind]

theorem apply_accrual_plain {index_ray total_shares yield_assets : Nat} :
    (apply_accrual index_ray total_shares yield_assets).Plain := by
  unfold apply_accrual
  split <;> simp [plain_bind]

theorem exitAmounts_plain {pool : VaultPool} {shares : Nat} :
    (exitAmounts pool position now shares).Plain := by
  have hpenalty {gross : Nat} : (penaltyAt now position.matures_at gross).Plain := by
    unfold penaltyAt early_exit_penalty
    split <;> simp [plain_bind]
  have hportion : (principalPortion shares position.shares position.principal).Plain := by
    unfold principalPortion
    split <;> simp [plain_bind]
  exact plain_bind assets_for_shares_plain fun _ _ => plain_bind hpenalty fun _ _ =>
    plain_bind plain_sub fun _ _ => plain_bind hportion fun _ _ => plain_pure _

/-- What a withdrawal of shares pays at an index, after the penalty. -/
def netAt (index : Nat) (position : UserVaultPosition) (now : Int64) (shares : Nat) : Nat :=
  shares * index / RAY - penaltyDue now position.matures_at (shares * index / RAY)

theorem netAt_mono {i j : Nat} (h : i ≤ j) (shares : Nat) :
    netAt i position now shares ≤ netAt j position now shares := by
  have hle : shares * i / RAY ≤ shares * j / RAY :=
    Nat.div_le_div_right (Nat.mul_le_mul_left shares h)
  unfold netAt penaltyDue penaltyOf EARLY_EXIT_PENALTY_BPS
  split <;> omega

/-- A withdrawal is taken from every pool that meets its invariant, if the
user's account has room for what it pays. -/
theorem vault_withdraw_lands (hi : Inv s) {a : PoolAccounts} {shares : Nat}
    (ha : s.pools.get term = some a) (hp : a.positions.get user = some position)
    (hpos : 0 < shares) (hle : shares ≤ position.shares) (hfits : shares ≤ U64_MAX)
    (hroom : s.scad.get (.user user) + netAt a.pool.index_ray position now shares ≤ U64_MAX) :
    ∃ s' event, (vault_withdraw s user term now shares).outcome = .ok (s', event) ∧
      event.net = netAt a.pool.index_ray position now shares := by
  have hpool := hi term a ha
  have hmine := hpool.shares_le hp
  have hplain : (vault_withdraw s user term now shares).Plain := by
    refine plain_bind (plain_lift (getPool_ok.mpr ha)) ?_
    rintro _ hu
    cases (getPool_ok.mp hu).symm.trans ha
    refine plain_bind (plain_lift (getPosition_ok.mpr hp)) ?_
    rintro _ hu
    cases (getPosition_ok.mp hu).symm.trans hp
    refine plain_bind (plain_require hpos) fun _ _ => ?_
    refine plain_bind (plain_require (hpool.owner user _ hp)) fun _ _ => ?_
    refine plain_bind (plain_require hle) fun _ _ => ?_
    refine plain_bind exitAmounts_plain fun e he => ?_
    refine plain_bind (plain_bind plain_sub fun _ _ => plain_bind apply_accrual_plain
      fun _ _ => plain_bind plain_saturatingSub fun _ _ => plain_pure _) fun _ _ => ?_
    refine plain_bind (plain_bind plain_sub fun _ _ => plain_bind plain_sub
      fun _ _ => plain_pure _) fun _ _ => ?_
    obtain ⟨hgross, hpenalty, hnet, -⟩ := exitAmounts_ok hpos hle he
    rw [hpool.clamp_eq (by omega)] at hgross
    have hpays : e.net = netAt a.pool.index_ray position now shares := by
      rw [hnet, hpenalty, hgross]
      rfl
    have hworth : shares * a.pool.index_ray / RAY ≤ a.pool.total_assets :=
      hpool.worth_le (by omega)
    have hheld := hpool.held
    have hpaid : e.net ≤ a.pool.total_assets := by omega
    refine plain_bind ?_ fun _ _ => plain_pure _
    unfold payOut
    split
    · exact plain_lift (transfer_ok.mpr ⟨hpaid.trans hheld, fun _ => hpays ▸ hroom, rfl⟩)
    · exact plain_lift rfl
  obtain ⟨⟨s', _⟩, hok⟩ := hplain (vault_withdraw_safe hi hfits)
  obtain ⟨_, _, e, he, rfl⟩ := vault_withdraw_ok hok
  cases he.pool.symm.trans ha
  cases he.found.symm.trans hp
  obtain ⟨hgross, -, -⟩ := he.worth hpool
  refine ⟨s', _, hok, ?_⟩
  show e.net = _
  rw [he.net_eq, he.penalty_eq, hgross]
  rfl

end Rest

/-! ## The results -/

/-- In every state of every run each pool's shares are covered by its assets
and these by its token account; after a deposit all shares but the locked
minimum are in positions; no withdrawal finds the token account short, and
no subtraction of a withdrawal saturates. -/
theorem pools_solvent {house : House} {scad : Balances Owner} {es : List Act}
    (hrun : run step (.initial house scad) es = some s) (ha : s.pools.get term = some a) :
    a.pool.total_shares * a.pool.index_ray ≤ a.pool.total_assets * RAY ∧
      a.pool.total_assets ≤ s.scad.get (.pool term) ∧
      ((∃ user now amount, .vaultDeposit user term now amount ∈ es) →
        a.sharesHeld + MINIMUM_LIQUIDITY = a.pool.total_shares) ∧
      ∀ user now shares,
        (exec s (.vaultWithdraw user term now shares)).outcome ≠
            .error (.token .insufficientFunds) ∧
          ∀ x y, .saturatingSub x y ∈ (exec s (.vaultWithdraw user term now shares)).ops →
            y ≤ x := by
  have hi := inv_run hrun
  have hpool := hi term a ha
  refine ⟨?_, hpool.held, ?_, ?_⟩
  · have hcovered := hpool.covered
    unfold Covers at hcovered
    omega
  · rintro ⟨user, now, _, hmem⟩
    obtain ⟨b, hb, _⟩ := opened_run hrun hmem
    rw [ha] at hb
    cases hb
    rcases hpool.shares with ⟨_, -⟩ | hsum
    · omega
    · exact hsum
  · intro user now shares
    refine ⟨?_, ?_⟩
    · have havoids : (exec s (.vaultWithdraw user term now shares)).Avoids
          (.token .insufficientFunds) := by
        simp only [exec, avoids_bind, avoids_pure, implies_true, and_true]
        exact vault_withdraw_not_short hi
      exact havoids
    · intro x y hmem
      exact exec_safe hi _ _ hmem

/-- The house, and what it and two users hold before the pools are there. -/
def sampleHouse : House := ⟨1, 2, false⟩

def sampleScad : Balances Owner :=
  ⟨[(.treasury, 900000), (.user 7, 5000000), (.user 8, 3000000)]⟩

/-- Two deposits with yield between them, an early exit and one at maturity. -/
def sampleActs : List Act :=
  [.initVaultPool 1 30 1500, .vaultDeposit 7 30 0 2000000, .vaultAccrue 2 30 300000,
    .vaultDeposit 8 30 86400 1000000, .vaultWithdraw 7 30 90000 777777,
    .vaultWithdraw 8 30 9000000 5]

theorem pools_solvent_sample : ∃ s a,
    run step (.initial sampleHouse sampleScad) sampleActs = some s ∧ s.pools.get 30 = some a ∧
      a.pool.total_shares * a.pool.index_ray ≤ a.pool.total_assets * RAY ∧
      a.sharesHeld + MINIMUM_LIQUIDITY = a.pool.total_shares := by
  have hsome : (run step (.initial sampleHouse sampleScad) sampleActs).any
      (fun s => (s.pools.get 30).isSome) = true := by decide +kernel
  obtain ⟨s, hrun, hs⟩ := (Option.any_eq_true _ _).mp hsome
  obtain ⟨a, ha⟩ := Option.isSome_iff_exists.mp hs
  obtain ⟨hcovered, -, hsum, -⟩ := pools_solvent hrun ha
  exact ⟨s, a, hrun, ha, hcovered, hsum ⟨7, 0, 2000000, by simp [sampleActs]⟩⟩

/-- From every state of every run every operation of every transaction has
its exact result: none overflows, and none truncates, clamps or saturates.
That the supply of SCAD fits a `u64` is the token program's own check. -/
theorem arithmetic_safe {house : House} {scad : Balances Owner} {es : List Act}
    (hrun : run step (.initial house scad) es = some s) (act : Act) :
    ∀ op ∈ (exec s act).ops, op.Safe := exec_safe (inv_run hrun) act

theorem arithmetic_safe_sample : ∃ s,
    run step (.initial sampleHouse sampleScad) sampleActs = some s ∧
      (exec s (.vaultWithdraw 7 30 90000 500000)).ops.length = 17 ∧
      ∀ op ∈ (exec s (.vaultWithdraw 7 30 90000 500000)).ops, op.Safe := by
  obtain ⟨s, hrun, hs⟩ : ∃ s, run step (.initial sampleHouse sampleScad) sampleActs = some s ∧
      (exec s (.vaultWithdraw 7 30 90000 500000)).ops.length = 17 := by decide +kernel
  exact ⟨s, hrun, hs, arithmetic_safe hrun _⟩

/-- A user leaves a position alone. Whatever the others and the house do, it
stays as it is, no withdrawal from it is refused, and each pays at least what
it would have paid before. -/
theorem savings_kept {house : House} {scad : Balances Owner} {es acts : List Act}
    {s' : VaultState} {position : UserVaultPosition}
    (hrun : run step (.initial house scad) es = some s) (ha : s.pools.get term = some a)
    (hp : a.positions.get user = some position) (hrest : run step s acts = some s')
    (hidle : ∀ act ∈ acts, ¬ act.Touches user term) :
    ∃ b, s'.pools.get term = some b ∧ b.positions.get user = some position ∧
      ∀ now (shares : UInt64), 0 < shares.toNat → shares.toNat ≤ position.shares →
        s'.scad.get (.user user) + netAt b.pool.index_ray position now shares.toNat ≤ U64_MAX →
        ∃ t event, (vault_withdraw s' user term now shares.toNat).outcome = .ok (t, event) ∧
          netAt a.pool.index_ray position now shares.toNat ≤ event.net := by
  have hi : Inv s' := inv_run (run_append.mpr ⟨s, hrun, hrest⟩)
  have halong : Along step (fun _ act => ¬ act.Touches user term) s acts :=
    along_of_forall s hidle
  have hrests : Rests s' user term position a.pool.index_ray :=
    run_induct (fun _ _ _ hidle hr h => rests_step hr hidle h) ⟨a, ha, hp, Nat.le_refl _⟩
      halong hrest
  obtain ⟨b, hb, hpb, hindex⟩ := hrests
  refine ⟨b, hb, hpb, ?_⟩
  intro now shares hpos hle hroom
  obtain ⟨t, event, hok, hnet⟩ := vault_withdraw_lands hi hb hpb hpos hle
    (Nat.le_pred_of_lt shares.toNat_lt) hroom
  exact ⟨t, event, hok, hnet ▸ netAt_mono hindex _⟩

/-- The first depositor waits out a yield, a deposit and an early exit. -/
theorem savings_kept_sample : ∃ s s' a position t event,
    run step (.initial sampleHouse sampleScad) (sampleActs.take 2) = some s ∧
      run step s ((sampleActs.drop 2).take 2 ++ [.vaultWithdraw 8 30 90000 400000]) = some s' ∧
      s.pools.get 30 = some a ∧ a.positions.get 7 = some position ∧
      (vault_withdraw s' 7 30 90000 777777).outcome = .ok (t, event) ∧
      netAt a.pool.index_ray position 90000 777777 ≤ event.net := by
  have hsome : (run step (.initial sampleHouse sampleScad) (sampleActs.take 2)).any (fun s =>
      (s.pools.get 30).any (fun a =>
        (a.positions.get 7).any fun p => decide (777777 ≤ p.shares) &&
      (run step s ((sampleActs.drop 2).take 2 ++ [.vaultWithdraw 8 30 90000 400000])).any fun s' =>
        (s'.pools.get 30).any fun b => decide (s'.scad.get (.user 7) +
          netAt b.pool.index_ray p 90000 777777 ≤ U64_MAX))) = true := by
    decide +kernel
  simp only [Option.any_eq_true, Bool.and_eq_true, decide_eq_true_eq] at hsome
  obtain ⟨s, hrun, a, ha, position, hp, hle, s', hrest, b, hb, hroom⟩ := hsome
  obtain ⟨_, hb', -, hlands⟩ := savings_kept hrun ha hp hrest (by
    simp [sampleActs, Act.Touches])
  cases hb.symm.trans hb'
  obtain ⟨t, event, hok, hnet⟩ := hlands 90000 777777 (by decide) hle hroom
  exact ⟨s, s', a, position, t, event, hrun, hrest, ha, hp, hok, hnet⟩

end Scadium.Programs.Vault
