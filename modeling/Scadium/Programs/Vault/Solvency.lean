/-
Scadium.Programs.Vault.Solvency — the assets of a term pool cover its
shares, in every state the program reaches.

`PoolInv` is the invariant of one pool: all shares but the locked minimum
are in positions, the assets cover all shares at the index, and the token
account holds the assets. It also says that the assets cover each principal
together with the other positions' shares, which keeps the sum of principals
of a position inside a `u64`. A deposit, an exit and an accrual each keep
it, by the rules of `ShareIndex`.
-/
import Scadium.Lib.Runs
import Scadium.Lib.ShareIndex
import Scadium.Programs.Vault.Instructions

namespace Scadium.Programs.Vault

open Scadium.Lib Scadium.Lib.ShareIndex

/-- The invariant of a pool whose token account holds `held`. -/
structure PoolInv (a : PoolAccounts) (held : Nat) : Prop where
  shares : a.pool.total_shares = 0 ∧ (∀ u, a.positions.get u = none) ∨
    a.sharesHeld + MINIMUM_LIQUIDITY = a.pool.total_shares
  index : RAY ≤ a.pool.index_ray
  covered : Covers RAY a.pool.total_assets 0 a.pool.total_shares a.pool.index_ray
  held : a.pool.total_assets ≤ held
  fits : a.pool.total_assets ≤ U64_MAX
  owner : ∀ u p, a.positions.get u = some p → p.owner = some u
  principal : ∀ u p, a.positions.get u = some p →
    Covers RAY a.pool.total_assets p.principal
      (a.pool.total_shares - (p.shares + MINIMUM_LIQUIDITY)) a.pool.index_ray

variable {a : PoolAccounts} {held : Nat} {user : Pubkey}

theorem poolInv_init (term : Term) (weight_bps : UInt16) :
    PoolInv ⟨⟨term, weight_bps, 0, 0, RAY⟩, .empty⟩ 0 where
  shares := .inl ⟨rfl, fun _ => rfl⟩
  index := Nat.le_refl _
  covered := covers_zero _ _
  held := Nat.le_refl _
  fits := Nat.zero_le _
  owner := by simp
  principal := by simp

theorem PoolInv.mono (hi : PoolInv a held) {more : Nat} (h : held ≤ more) : PoolInv a more :=
  { hi with held := hi.held.trans h }

/-! ## Positions -/

section Positions

variable {position : UserVaultPosition}

/-- A position and the locked minimum are among the shares. -/
theorem PoolInv.shares_le (hi : PoolInv a held) (hp : a.positions.get user = some position) :
    position.shares + MINIMUM_LIQUIDITY ≤ a.pool.total_shares := by
  rcases hi.shares with ⟨-, hnone⟩ | hsum
  · rw [hnone] at hp
    cases hp
  · have hle := a.positions.le_sum (g := UserVaultPosition.shares) hp
    have hsum' : a.positions.sum UserVaultPosition.shares + MINIMUM_LIQUIDITY =
        a.pool.total_shares := hsum
    omega

/-- So are two positions. -/
theorem PoolInv.two_shares_le (hi : PoolInv a held) {other : Pubkey} {position' : UserVaultPosition}
    (hne : other ≠ user) (hp : a.positions.get user = some position)
    (hp' : a.positions.get other = some position') :
    position'.shares + position.shares + MINIMUM_LIQUIDITY ≤ a.pool.total_shares := by
  rcases hi.shares with ⟨-, hnone⟩ | hsum
  · rw [hnone] at hp
    cases hp
  · have hle := a.positions.add_le_sum (g := UserVaultPosition.shares) hne hp' hp
    have hsum' : a.positions.sum UserVaultPosition.shares + MINIMUM_LIQUIDITY =
        a.pool.total_shares := hsum
    omega

theorem PoolInv.principal_le (hi : PoolInv a held) (hp : a.positions.get user = some position) :
    position.principal ≤ a.pool.total_assets :=
  (hi.principal user position hp).fixed_le (by decide)

/-- The position as a deposit finds or creates it. -/
theorem PoolInv.position_covered (hi : PoolInv a held) (user : Pubkey) :
    Covers RAY a.pool.total_assets (a.position user).principal
      (a.pool.total_shares - ((a.position user).shares + MINIMUM_LIQUIDITY))
      a.pool.index_ray := by
  unfold PoolAccounts.position
  cases hp : a.positions.get user with
  | none => exact hi.covered.mono (Nat.sub_le _ _)
  | some position => exact hi.principal user position hp

theorem PoolInv.position_principal_le (hi : PoolInv a held) (user : Pubkey) :
    (a.position user).principal ≤ a.pool.total_assets :=
  (hi.position_covered user).fixed_le (by decide)

end Positions

/-! ## Shares and their worth -/

/-- Shares of the pool are worth no more than its assets. -/
theorem PoolInv.worth_le (hi : PoolInv a held) {shares : Nat}
    (hle : shares ≤ a.pool.total_shares) :
    shares * a.pool.index_ray / RAY ≤ a.pool.total_assets := hi.covered.worth_le hle

/-- So the clamp leaves it alone. -/
theorem PoolInv.clamp_eq (hi : PoolInv a held) {shares : Nat}
    (hle : shares ≤ a.pool.total_shares) :
    min (shares * a.pool.index_ray / RAY) U64_MAX = shares * a.pool.index_ray / RAY :=
  Nat.min_eq_left ((hi.worth_le hle).trans hi.fits)

/-! ## One pool -/

section Deposit

variable {amount shares minted : Nat} {matures_at : Int}

theorem sharesHeld_afterDeposit :
    (a.afterDeposit user amount shares minted matures_at).sharesHeld = a.sharesHeld + minted := by
  have hset := a.positions.sum_set (k := user) (g := UserVaultPosition.shares)
    (a := ⟨some user, (a.position user).shares + minted,
      (a.position user).principal + amount, matures_at⟩)
  unfold PoolAccounts.sharesHeld PoolAccounts.afterDeposit
  simp only
  unfold PoolAccounts.position at *
  cases hp : a.positions.get user with
  | none =>
    simp only [hp, Option.map_none, Option.getD_none, UserVaultPosition.zeroed] at hset ⊢
    omega
  | some =>
    simp only [hp, Option.map_some, Option.getD_some] at hset ⊢
    omega

theorem PoolInv.deposit (hi : PoolInv a held) (hshares : shares = amount * RAY / a.pool.index_ray)
    (hminted : shares = minted + if a.pool.total_shares = 0 then MINIMUM_LIQUIDITY else 0)
    (hroom : held + amount ≤ U64_MAX) :
    PoolInv (a.afterDeposit user amount shares minted matures_at) (held + amount) := by
  have hheld := hi.held
  have hcovered := hi.covered.deposit amount
  rw [← hshares] at hcovered
  -- of the shares, the depositor's and the locked ones are left out
  have hfresh (j : Pubkey) (hne : j ≠ user) (p : UserVaultPosition)
      (hp : a.positions.get j = some p) : Covers RAY (a.pool.total_assets + amount) p.principal
        (a.pool.total_shares + shares - (p.shares + MINIMUM_LIQUIDITY)) a.pool.index_ray := by
    have hdeposit := (hi.principal j p hp).deposit amount
    rw [← hshares] at hdeposit
    have hle := hi.shares_le hp
    exact hdeposit.mono (by omega)
  have hown : Covers RAY (a.pool.total_assets + amount) ((a.position user).principal + amount)
      (a.pool.total_shares + shares - ((a.position user).shares + minted + MINIMUM_LIQUIDITY))
      a.pool.index_ray := by
    refine ((hi.position_covered user).deposit_fixed amount).mono ?_
    split at hminted <;> omega
  exact
    { shares := by
        right
        rw [sharesHeld_afterDeposit]
        show a.sharesHeld + minted + MINIMUM_LIQUIDITY = a.pool.total_shares + shares
        rcases hi.shares with ⟨hzero, hnone⟩ | hsum
        · have hnobody : a.sharesHeld = 0 := a.positions.sum_eq_zero (by simp [hnone])
          rw [if_pos hzero] at hminted
          omega
        · have hpos : a.pool.total_shares ≠ 0 := by
            unfold MINIMUM_LIQUIDITY at hsum
            omega
          rw [if_neg hpos] at hminted
          omega
      index := hi.index
      covered := hcovered
      held := by
        show a.pool.total_assets + amount ≤ held + amount
        omega
      fits := by
        show a.pool.total_assets + amount ≤ U64_MAX
        omega
      owner := by
        refine a.positions.forall_set hi.owner rfl
      principal := by
        intro j p hp
        by_cases hj : j = user
        · subst hj
          rw [PoolAccounts.afterDeposit, Table.get_set_self] at hp
          cases hp
          exact hown
        · rw [PoolAccounts.afterDeposit, Table.get_set_ne _ hj] at hp
          exact hfresh j hj p hp }

end Deposit

section Exit

variable {position : UserVaultPosition} {shares : Nat} {e : Exit}

theorem sharesHeld_afterExit (hp : a.positions.get user = some position)
    (hle : shares ≤ position.shares) :
    (a.afterExit user position shares e).sharesHeld + shares = a.sharesHeld := by
  have hset := a.positions.sum_set (k := user) (g := UserVaultPosition.shares)
    (a := { position with
      shares := position.shares - shares, principal := position.principal - e.principal_portion })
  unfold PoolAccounts.sharesHeld PoolAccounts.afterExit
  simp only [hp, Option.map_some, Option.getD_some] at hset ⊢
  omega

theorem PoolInv.exit (hi : PoolInv a held) (hp : a.positions.get user = some position)
    (hle : shares ≤ position.shares)
    (hworth : e.net + e.penalty = shares * a.pool.index_ray / RAY)
    (hportion : e.principal_portion = position.principal * shares / position.shares) :
    PoolInv (a.afterExit user position shares e) (held - e.net) := by
  have hmine := hi.shares_le hp
  have hheld := hi.held
  have hfits := hi.fits
  have hfloor : (e.net + e.penalty) * RAY ≤ shares * a.pool.index_ray :=
    hworth ▸ Nat.div_mul_le_self _ _
  -- the others': the shares that leave are among those covered with their principal
  have hothers (j : Pubkey) (hne : j ≠ user) (p : UserVaultPosition)
      (hj : a.positions.get j = some p) :
      Covers RAY (a.pool.total_assets - e.net) p.principal
        (a.pool.total_shares - shares - (p.shares + MINIMUM_LIQUIDITY))
        (a.pool.index_ray + e.penalty * RAY / (a.pool.total_shares - shares)) := by
    have htwo := hi.two_shares_le hne hp hj
    have hexit := (hi.principal j p hj).exit (s := shares) (t := a.pool.total_shares - shares)
      (by omega) hfloor (by omega)
    exact hexit.mono (by omega)
  -- the owner's: they are not, and the principal goes down with them
  have hown : Covers RAY (a.pool.total_assets - e.net)
      (position.principal - e.principal_portion)
      (a.pool.total_shares - shares - (position.shares - shares + MINIMUM_LIQUIDITY))
      (a.pool.index_ray + e.penalty * RAY / (a.pool.total_shares - shares)) := by
    rw [hportion]
    have hall : Covers RAY a.pool.total_assets 0
        (a.pool.total_shares - (position.shares + MINIMUM_LIQUIDITY) + position.shares +
          MINIMUM_LIQUIDITY) a.pool.index_ray := hi.covered.mono (by omega)
    have hlock : RAY ≤ MINIMUM_LIQUIDITY * a.pool.index_ray := by
      have hindex := hi.index
      unfold MINIMUM_LIQUIDITY
      omega
    have hexit := (hi.principal user position hp).exit_fixed
      (t := a.pool.total_shares - shares) hall hlock (by decide) hle hworth (by omega)
    exact hexit.mono (by omega)
  exact
    { shares := by
        right
        rcases hi.shares with ⟨-, hnone⟩ | hsum
        · rw [hnone] at hp
          cases hp
        · have hheld' := sharesHeld_afterExit (e := e) hp hle
          show (a.afterExit user position shares e).sharesHeld + MINIMUM_LIQUIDITY =
            a.pool.total_shares - shares
          omega
      index := hi.index.trans (Nat.le_add_right _ _)
      covered := hi.covered.exit (by omega) hfloor (Nat.le_refl _)
      held := by
        show a.pool.total_assets - e.net ≤ held - e.net
        omega
      fits := by
        show a.pool.total_assets - e.net ≤ U64_MAX
        omega
      owner := by
        refine a.positions.forall_set hi.owner ?_
        exact hi.owner user position hp
      principal := by
        intro j p hj
        by_cases hne : j = user
        · subst hne
          rw [PoolAccounts.afterExit, Table.get_set_self] at hj
          cases hj
          exact hown
        · rw [PoolAccounts.afterExit, Table.get_set_ne _ hne] at hj
          exact hothers j hne p hj }

end Exit

theorem PoolInv.accrue (hi : PoolInv a held) {amount : Nat} (hroom : held + amount ≤ U64_MAX) :
    PoolInv (a.afterAccrual amount) (held + amount) := by
  have hheld := hi.held
  exact
    { shares := hi.shares
      index := hi.index.trans (Nat.le_add_right _ _)
      covered := hi.covered.raise (Nat.le_refl _) amount
      held := by
        show a.pool.total_assets + amount ≤ held + amount
        omega
      fits := by
        show a.pool.total_assets + amount ≤ U64_MAX
        omega
      owner := hi.owner
      principal := fun u p hp => (hi.principal u p hp).raise (Nat.sub_le _ _) amount }

/-! ## Runs -/

variable {s s' : VaultState} {act : Act} {term : Term}

/-- Every pool meets its invariant. -/
def Inv (s : VaultState) : Prop :=
  ∀ term a, s.pools.get term = some a → PoolInv a (s.scad.get (.pool term))

theorem inv_initial (house : House) (scad : Balances Owner) : Inv (.initial house scad) := by
  intro term a ha
  cases ha

/-- A transaction that writes one pool. -/
theorem Inv.set (hi : Inv s) {a : PoolAccounts} (hpools : s'.pools = s.pools.set term a)
    (hothers : ∀ j, j ≠ term → s.scad.get (.pool j) ≤ s'.scad.get (.pool j))
    (ha : PoolInv a (s'.scad.get (.pool term))) : Inv s' := by
  intro j b hb
  rw [hpools] at hb
  by_cases hj : j = term
  · subst hj
    rw [Table.get_set_self] at hb
    cases hb
    exact ha
  · rw [Table.get_set_ne _ hj] at hb
    exact (hi j b hb).mono (hothers j hj)

/-- The exit of a position of a pool that meets its invariant. -/
theorem Exited.worth {now : Int64} {shares : Nat} {position : UserVaultPosition} {e : Exit}
    (h : Exited s s' user term now shares a position e) (hi : PoolInv a held) :
    e.gross = shares * a.pool.index_ray / RAY ∧ e.net + e.penalty = e.gross ∧
      e.principal_portion = position.principal * shares / position.shares := by
  have hle := h.shares_le
  have hmine := hi.shares_le h.found
  have hprincipal := hi.principal_le h.found
  have hgross := h.gross_eq
  rw [hi.clamp_eq (by omega)] at hgross
  have hpenalty := penaltyDue_le now position.matures_at e.gross
  rw [← h.penalty_eq] at hpenalty
  have hnet := h.net_eq
  exact ⟨hgross, by omega, h.portion (hprincipal.trans hi.fits)⟩

theorem inv_step (hi : Inv s) (h : step s act = some s') : Inv s' := by
  rcases exec_cases (step_ok.mp h) with hcalm | ⟨_, term, weight_bps, -, -, -, rfl⟩ |
    ⟨user, term, now, amount, a, shares, minted, matures_at, -, hd⟩ |
    ⟨user, term, now, shares, a, position, e, -, he⟩ | ⟨cosigner, term, amount, a, -, ha⟩
  · intro term a ha
    rw [hcalm.pools] at ha
    exact (hi term a ha).mono (hcalm.scad term)
  · exact hi.set rfl (fun _ _ => Nat.le_refl _) ((poolInv_init term weight_bps).mono (Nat.zero_le _))
  · refine hi.set hd.pools ?_ ?_
    · intro j _
      rw [hd.scad]
      exact s.scad.get_le_move (by simp)
    · rw [hd.scad, s.scad.get_move_dst (by simp)]
      exact (hi term a hd.pool).deposit hd.shares_eq hd.minted_eq hd.room
  · obtain ⟨hgross, hworth, hportion⟩ := he.worth (hi term a he.pool)
    refine hi.set he.pools ?_ ?_
    · intro j hj
      rw [he.scad]
      exact s.scad.get_le_move (by simpa using hj.symm)
    · rw [he.scad, s.scad.get_move_src (by simp)]
      exact (hi term a he.pool).exit he.found he.shares_le (hworth.trans hgross) hportion
  · refine hi.set ha.pools ?_ ?_
    · intro j _
      rw [ha.scad]
      exact s.scad.get_le_move (by simp)
    · rw [ha.scad, s.scad.get_move_dst (by simp)]
      exact (hi term a ha.pool).accrue ha.room

theorem inv_run {house : House} {scad : Balances Owner} {es : List Act}
    (hrun : run step (.initial house scad) es = some s) : Inv s :=
  run_invariant (fun _ _ _ hi h => inv_step hi h) (inv_initial house scad) hrun

end Scadium.Programs.Vault
