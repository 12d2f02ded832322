/-
Scadium.Programs.Vault.Instructions — what each instruction of the term
pools does when it lands.

The record of operations is left aside here: one lemma for each helper and
each instruction says what the outcome is. The accounts of a pool after a
deposit, an exit or an accrual are written out as functions of those before
it, so that what follows can speak of one pool at a time.
-/
import Scadium.Programs.Vault.Program

namespace Scadium.Programs.Vault

open Scadium.Lib Traced

/-! ## Vault math -/

theorem shares_for_deposit_ok {assets index_ray shares : Nat}
    (h : (shares_for_deposit assets index_ray).outcome = .ok shares) :
    shares = assets * RAY / index_ray := by
  unfold shares_for_deposit at h
  split at h
  case isTrue hzero =>
    simp only [outcome_pure, Except.ok.injEq] at h
    rcases hzero with rfl | rfl
    · simp [h.symm]
    · simp [h.symm]
  case isFalse =>
    simp only [Traced.bind_ok, mul_ok, div_ok] at h
    obtain ⟨_, ⟨-, rfl⟩, -, rfl⟩ := h
    rfl

theorem assets_for_shares_ok {shares index_ray assets : Nat}
    (h : (assets_for_shares shares index_ray).outcome = .ok assets) :
    assets = min (shares * index_ray / RAY) U64_MAX := by
  unfold assets_for_shares at h
  split at h
  case isTrue hzero =>
    simp only [outcome_pure, Except.ok.injEq] at h
    rcases hzero with rfl | rfl
    · simp [h.symm]
    · simp [h.symm]
  case isFalse =>
    simp only [Traced.bind_ok, mul_ok, div_ok, clamp_ok] at h
    obtain ⟨_, ⟨-, rfl⟩, a, ⟨-, rfl⟩, rfl⟩ := h
    rfl

theorem apply_accrual_ok {index_ray total_shares yield_assets index : Nat}
    (h : (apply_accrual index_ray total_shares yield_assets).outcome = .ok index) :
    index = index_ray + yield_assets * RAY / total_shares := by
  unfold apply_accrual at h
  split at h
  case isTrue hzero =>
    simp only [outcome_pure, Except.ok.injEq] at h
    rcases hzero with rfl | rfl
    · simp [h.symm]
    · simp [h.symm]
  case isFalse =>
    simp only [Traced.bind_ok, mul_ok, div_ok, add_ok] at h
    obtain ⟨_, ⟨-, rfl⟩, _, ⟨-, rfl⟩, -, rfl⟩ := h
    rfl

/-- The penalty, in exact numbers. -/
def penaltyOf (assets : Nat) : Nat := assets * EARLY_EXIT_PENALTY_BPS / 10000

theorem penaltyOf_le (assets : Nat) : penaltyOf assets ≤ assets := by
  unfold penaltyOf EARLY_EXIT_PENALTY_BPS
  omega

theorem early_exit_penalty_ok {assets penalty : Nat} (hfits : assets ≤ U64_MAX)
    (h : (early_exit_penalty assets).outcome = .ok penalty) : penalty = penaltyOf assets := by
  simp only [early_exit_penalty, Traced.bind_ok, mul_ok, div_ok, cast_ok] at h
  obtain ⟨_, ⟨-, rfl⟩, _, ⟨-, rfl⟩, rfl⟩ := h
  have hle := penaltyOf_le assets
  show penaltyOf assets % (U64_MAX + 1) = penaltyOf assets
  rw [Nat.mod_eq_of_lt (by omega)]

theorem mintedShares_ok {first : Bool} {shares minted : Nat}
    (h : (mintedShares first shares).outcome = .ok minted) :
    shares = minted + if first then MINIMUM_LIQUIDITY else 0 := by
  unfold mintedShares at h
  split at h
  case isTrue hfirst =>
    simp only [Traced.bind_ok, outcome_lift, require_ok, sub_ok] at h
    obtain ⟨-, -, _, _⟩ := h
    rw [if_pos hfirst]
    omega
  case isFalse hlater =>
    simp only [outcome_pure, Except.ok.injEq] at h
    rw [if_neg hlater]
    omega

/-- The penalty of a withdrawal that pays `gross` before the penalty. -/
def penaltyDue (now : Int64) (matures_at : Int) (gross : Nat) : Nat :=
  if now.toInt < matures_at then penaltyOf gross else 0

theorem penaltyDue_le (now : Int64) (matures_at : Int) (gross : Nat) :
    penaltyDue now matures_at gross ≤ gross := by
  unfold penaltyDue
  split
  · exact penaltyOf_le gross
  · exact Nat.zero_le _

theorem penaltyAt_ok {now : Int64} {matures_at : Int} {gross penalty : Nat}
    (hfits : gross ≤ U64_MAX) (h : (penaltyAt now matures_at gross).outcome = .ok penalty) :
    penalty = penaltyDue now matures_at gross := by
  unfold penaltyAt at h
  unfold penaltyDue
  split at h
  case isTrue hearly =>
    rw [if_pos hearly]
    exact early_exit_penalty_ok hfits h
  case isFalse hmature =>
    rw [if_neg hmature]
    simp only [outcome_pure, Except.ok.injEq] at h
    exact h.symm

theorem principal_share_le {shares pos_shares : Nat} (pos_principal : Nat)
    (hle : shares ≤ pos_shares) : pos_principal * shares / pos_shares ≤ pos_principal := by
  refine Nat.div_le_of_le_mul ?_
  rw [Nat.mul_comm pos_shares]
  exact Nat.mul_le_mul_left _ hle

theorem principalPortion_ok {shares pos_shares pos_principal portion : Nat} (hpos : 0 < shares)
    (hle : shares ≤ pos_shares) (hfits : pos_principal ≤ U64_MAX)
    (h : (principalPortion shares pos_shares pos_principal).outcome = .ok portion) :
    portion = pos_principal * shares / pos_shares := by
  unfold principalPortion at h
  split at h
  case isTrue heq =>
    simp only [outcome_pure, Except.ok.injEq] at h
    rw [← heq, Nat.mul_div_cancel _ hpos, h]
  case isFalse =>
    simp only [Traced.bind_ok, mul_ok, div_ok, cast_ok] at h
    obtain ⟨_, ⟨-, rfl⟩, _, ⟨-, rfl⟩, rfl⟩ := h
    have hportion := principal_share_le pos_principal hle
    exact Nat.mod_eq_of_lt (by omega)

/-! ## The accounts of a pool afterwards -/

namespace PoolAccounts

/-- The user's position, as `init_if_needed` finds or creates it. -/
def position (a : PoolAccounts) (user : Pubkey) : UserVaultPosition :=
  (a.positions.get user).getD .zeroed

/-- The shares of all positions. -/
def sharesHeld (a : PoolAccounts) : Nat := a.positions.sum UserVaultPosition.shares

def afterDeposit (a : PoolAccounts) (user : Pubkey) (amount shares minted : Nat)
    (matures_at : Int) : PoolAccounts where
  pool := { a.pool with
    total_shares := a.pool.total_shares + shares, total_assets := a.pool.total_assets + amount }
  positions := a.positions.set user ⟨some user, (a.position user).shares + minted,
    (a.position user).principal + amount, matures_at⟩

def afterExit (a : PoolAccounts) (user : Pubkey) (position : UserVaultPosition) (shares : Nat)
    (e : Exit) : PoolAccounts where
  pool := { a.pool with
    total_shares := a.pool.total_shares - shares
    total_assets := a.pool.total_assets - e.net
    index_ray := a.pool.index_ray + e.penalty * RAY / (a.pool.total_shares - shares) }
  positions := a.positions.set user { position with
    shares := position.shares - shares, principal := position.principal - e.principal_portion }

def afterAccrual (a : PoolAccounts) (amount : Nat) : PoolAccounts where
  pool := { a.pool with
    total_assets := a.pool.total_assets + amount
    index_ray := a.pool.index_ray + amount * RAY / a.pool.total_shares }
  positions := a.positions

end PoolAccounts

/-! ## Instructions -/

variable {s s' : VaultState} {user : Pubkey} {term : Term} {now : Int64} {a : PoolAccounts}

theorem getPool_ok : s.getPool term = .ok a ↔ s.pools.get term = some a := by
  unfold VaultState.getPool
  split <;> simp_all

theorem getPosition_ok {position : UserVaultPosition} :
    a.getPosition user = .ok position ↔ a.positions.get user = some position := by
  unfold PoolAccounts.getPosition
  split <;> simp_all

@[simp] theorem constraint_ok {c : Prop} [Decidable c] {u : Unit} : constraint c = .ok u ↔ c := by
  unfold constraint
  split <;> simp_all

/-- What `init_vault_pool` did. -/
theorem init_vault_pool_ok {authority : Pubkey} {weight_bps : UInt16}
    (h : (init_vault_pool s authority term weight_bps).outcome = .ok s') :
    s.pools.get term = none ∧ s.scad.get (.pool term) = 0 ∧
      s' = { s with pools := s.pools.set term ⟨⟨term, weight_bps, 0, 0, RAY⟩, .empty⟩ } := by
  simp only [init_vault_pool, Traced.bind_ok, outcome_lift, constraint_ok, outcome_pure,
    Except.ok.injEq, Option.isNone_iff_eq_none] at h
  obtain ⟨-, -, -, ⟨hnone, hzero⟩, rfl⟩ := h
  exact ⟨hnone, hzero, rfl⟩

/-- What `vault_deposit` did. -/
structure Deposited (s s' : VaultState) (user : Pubkey) (term : Term) (amount : Nat)
    (a : PoolAccounts) (shares minted : Nat) (matures_at : Int) : Prop where
  pool : s.pools.get term = some a
  shares_eq : shares = amount * RAY / a.pool.index_ray
  shares_pos : 0 < shares
  minted_eq : shares = minted + if a.pool.total_shares = 0 then MINIMUM_LIQUIDITY else 0
  paid : amount ≤ s.scad.get (.user user)
  room : s.scad.get (.pool term) + amount ≤ U64_MAX
  pools : s'.pools = s.pools.set term (a.afterDeposit user amount shares minted matures_at)
  scad : s'.scad = s.scad.move (.user user) (.pool term) amount
  house : s'.house = s.house

theorem vault_deposit_ok {amount : Nat} {event : VaultDeposited}
    (h : (vault_deposit s user term now amount).outcome = .ok (s', event)) :
    ∃ a shares minted matures_at, Deposited s s' user term amount a shares minted matures_at := by
  simp only [vault_deposit, Traced.bind_ok, outcome_lift, require_ok, getPool_ok, transfer_ok,
    add_ok, outcome_pure, Except.ok.injEq, Prod.mk.injEq] at h
  obtain ⟨a, ha, -, -, shares, hshares, -, hpos, minted, hminted, scad, ⟨hpaid, hroom, rfl⟩,
    _, ⟨-, rfl⟩, _, ⟨-, rfl⟩, -, howner, _, ⟨-, rfl⟩, _,
    ⟨-, rfl⟩, matures_at, -, rfl, -⟩ := h
  have hmint := mintedShares_ok hminted
  refine ⟨a, shares, minted, matures_at, ?_⟩
  exact
    { pool := ha
      shares_eq := shares_for_deposit_ok hshares
      shares_pos := hpos
      minted_eq := by simpa using hmint
      paid := hpaid
      room := hroom (by simp)
      pools := by
        rw [howner]
        rfl
      scad := rfl
      house := rfl }

/-- What `vault_withdraw` did. -/
structure Exited (s s' : VaultState) (user : Pubkey) (term : Term) (now : Int64) (shares : Nat)
    (a : PoolAccounts) (position : UserVaultPosition) (e : Exit) : Prop where
  pool : s.pools.get term = some a
  found : a.positions.get user = some position
  shares_pos : 0 < shares
  shares_le : shares ≤ position.shares
  gross_eq : e.gross = min (shares * a.pool.index_ray / RAY) U64_MAX
  penalty_eq : e.penalty = penaltyDue now position.matures_at e.gross
  net_eq : e.net = e.gross - e.penalty
  portion : position.principal ≤ U64_MAX →
    e.principal_portion = position.principal * shares / position.shares
  paid : e.net ≤ s.scad.get (.pool term)
  pools : s'.pools = s.pools.set term (a.afterExit user position shares e)
  scad : ∀ owner, s'.scad.get owner = (s.scad.move (.pool term) (.user user) e.net).get owner
  house : s'.house = s.house

theorem exitAmounts_ok {pool : VaultPool} {position : UserVaultPosition} {shares : Nat} {e : Exit}
    (hpos : 0 < shares) (hle : shares ≤ position.shares)
    (h : (exitAmounts pool position now shares).outcome = .ok e) :
    e.gross = min (shares * pool.index_ray / RAY) U64_MAX ∧
      e.penalty = penaltyDue now position.matures_at e.gross ∧ e.net = e.gross - e.penalty ∧
      (position.principal ≤ U64_MAX →
        e.principal_portion = position.principal * shares / position.shares) := by
  simp only [exitAmounts, Traced.bind_ok, sub_ok, outcome_pure, Except.ok.injEq] at h
  obtain ⟨gross, hgross, _, hpenalty, _, ⟨-, rfl⟩, _, hportion, rfl⟩ := h
  have hvalue := assets_for_shares_ok hgross
  have hfits : gross ≤ U64_MAX := hvalue ▸ Nat.min_le_right _ _
  exact ⟨hvalue, penaltyAt_ok hfits hpenalty, rfl,
    fun hprincipal => principalPortion_ok hpos hle hprincipal hportion⟩

theorem vaultPool_exit_ok {pool pool' : VaultPool} {shares : Nat} {e : Exit}
    (h : (pool.exit shares e).outcome = .ok pool') :
    pool' = { pool with
      total_shares := pool.total_shares - shares
      total_assets := pool.total_assets - e.net
      index_ray := pool.index_ray + e.penalty * RAY / (pool.total_shares - shares) } := by
  simp only [VaultPool.exit, Traced.bind_ok, sub_ok, saturatingSub_ok, outcome_pure,
    Except.ok.injEq] at h
  obtain ⟨_, ⟨-, rfl⟩, _, hindex, _, rfl, rfl⟩ := h
  rw [apply_accrual_ok hindex]

theorem position_exit_ok {position position' : UserVaultPosition} {shares : Nat} {e : Exit}
    (h : (position.exit shares e).outcome = .ok position') :
    position' = { position with
      shares := position.shares - shares
      principal := position.principal - e.principal_portion } := by
  simp only [UserVaultPosition.exit, Traced.bind_ok, sub_ok, outcome_pure, Except.ok.injEq] at h
  obtain ⟨_, ⟨-, rfl⟩, _, ⟨-, rfl⟩, rfl⟩ := h
  rfl

theorem payOut_ok {scad scad' : Balances Owner} {net : Nat}
    (h : payOut scad term user net = .ok scad') :
    net ≤ scad.get (.pool term) ∧
      ∀ owner, scad'.get owner = (scad.move (.pool term) (.user user) net).get owner := by
  unfold payOut at h
  split at h
  case isTrue =>
    obtain ⟨hle, -, rfl⟩ := transfer_ok.mp h
    exact ⟨hle, fun _ => rfl⟩
  case isFalse hnot =>
    cases h
    have hzero : net = 0 := by omega
    subst hzero
    exact ⟨Nat.zero_le _, fun owner => (scad.get_move_zero owner).symm⟩

theorem vault_withdraw_ok {shares : Nat} {event : VaultWithdrawn}
    (h : (vault_withdraw s user term now shares).outcome = .ok (s', event)) :
    ∃ a position e, Exited s s' user term now shares a position e ∧
      event = ⟨user, shares, e.gross, e.penalty, e.net⟩ := by
  simp only [vault_withdraw, Traced.bind_ok, outcome_lift, require_ok, getPool_ok, getPosition_ok,
    outcome_pure, Except.ok.injEq, Prod.mk.injEq] at h
  obtain ⟨a, ha, position, hposition, -, hpos, -, -, -, hle, e, he, pool, hpool, _,
    hposition', scad, hscad, rfl, rfl⟩ := h
  obtain ⟨hgross, hpenalty, hnet, hportion⟩ := exitAmounts_ok hpos hle he
  obtain ⟨hpaid, hmoved⟩ := payOut_ok hscad
  refine ⟨a, position, e, ?_, rfl⟩
  exact
    { pool := ha, found := hposition, shares_pos := hpos, shares_le := hle, gross_eq := hgross
      penalty_eq := hpenalty, net_eq := hnet, portion := hportion, paid := hpaid
      pools := by
        rw [vaultPool_exit_ok hpool, position_exit_ok hposition']
        rfl
      scad := hmoved
      house := rfl }

/-- What `vault_accrue` did. -/
structure Accrued (s s' : VaultState) (term : Term) (amount : Nat) (a : PoolAccounts) : Prop where
  pool : s.pools.get term = some a
  shares_pos : 0 < a.pool.total_shares
  paid : amount ≤ s.scad.get .treasury
  room : s.scad.get (.pool term) + amount ≤ U64_MAX
  pools : s'.pools = s.pools.set term (a.afterAccrual amount)
  scad : s'.scad = s.scad.move .treasury (.pool term) amount
  house : s'.house = s.house

theorem vault_accrue_ok {cosigner : Pubkey} {amount : Nat} {event : VaultAccrued}
    (h : (vault_accrue s cosigner term amount).outcome = .ok (s', event)) :
    ∃ a, Accrued s s' term amount a := by
  simp only [vault_accrue, Traced.bind_ok, outcome_lift, require_ok, getPool_ok, transfer_ok,
    add_ok, outcome_pure, Except.ok.injEq, Prod.mk.injEq] at h
  obtain ⟨a, ha, -, -, -, -, -, -, -, hpos, scad, ⟨hpaid, hroom, rfl⟩, _, hindex, _,
    ⟨-, rfl⟩, rfl, -⟩ := h
  refine ⟨a, ?_⟩
  exact
    { pool := ha, shares_pos := hpos, paid := hpaid, room := hroom (by simp)
      pools := by
        rw [apply_accrual_ok hindex]
        rfl
      scad := rfl, house := rfl }

/-- A transaction that leaves the pools alone, and takes nothing out of their
token accounts. -/
structure Calm (s s' : VaultState) : Prop where
  pools : s'.pools = s.pools
  scad : ∀ term, s.scad.get (.pool term) ≤ s'.scad.get (.pool term)

theorem sendScad_calm {src dst : Owner} {amount : UInt64}
    (h : (exec s (.sendScad src dst amount)).outcome = .ok s') : Calm s s' := by
  simp only [exec, Traced.bind_ok, outcome_lift, constraint_ok, transfer_ok, outcome_pure,
    Except.ok.injEq] at h
  obtain ⟨-, hsrc, _, ⟨-, -, rfl⟩, rfl⟩ := h
  refine ⟨rfl, ?_⟩
  intro term
  have hne : src ≠ .pool term := by
    intro heq
    simp [heq, Owner.isPool] at hsrc
  exact s.scad.get_le_move hne

/-- What a transaction that lands did. -/
theorem exec_cases {act : Act} (h : (exec s act).outcome = .ok s') :
    Calm s s' ∨
    (∃ authority term weight_bps, act = .initVaultPool authority term weight_bps ∧
      s.pools.get term = none ∧ s.scad.get (.pool term) = 0 ∧
      s' = { s with pools := s.pools.set term ⟨⟨term, weight_bps, 0, 0, RAY⟩, .empty⟩ }) ∨
    (∃ user term now amount a shares minted matures_at,
      act = .vaultDeposit user term now amount ∧
      Deposited s s' user term amount.toNat a shares minted matures_at) ∨
    (∃ user term now shares a position e, act = .vaultWithdraw user term now shares ∧
      Exited s s' user term now shares.toNat a position e) ∨
    ∃ cosigner term amount a, act = .vaultAccrue cosigner term amount ∧
      Accrued s s' term amount.toNat a := by
  cases act with
  | initVaultPool authority term weight_bps =>
    obtain ⟨hnone, hzero, hs'⟩ := init_vault_pool_ok h
    exact .inr (.inl ⟨authority, term, weight_bps, rfl, hnone, hzero, hs'⟩)
  | vaultDeposit user term now amount =>
    simp only [exec, Traced.bind_ok, outcome_pure, Except.ok.injEq] at h
    obtain ⟨⟨t, event⟩, hdeposit, rfl⟩ := h
    obtain ⟨a, shares, minted, matures_at, hd⟩ := vault_deposit_ok hdeposit
    exact .inr (.inr (.inl ⟨user, term, now, amount, a, shares, minted, matures_at, rfl, hd⟩))
  | vaultWithdraw user term now shares =>
    simp only [exec, Traced.bind_ok, outcome_pure, Except.ok.injEq] at h
    obtain ⟨⟨t, event⟩, hwithdraw, rfl⟩ := h
    obtain ⟨a, position, e, he, -⟩ := vault_withdraw_ok hwithdraw
    exact .inr (.inr (.inr (.inl ⟨user, term, now, shares, a, position, e, rfl, he⟩)))
  | vaultAccrue cosigner term amount =>
    simp only [exec, Traced.bind_ok, outcome_pure, Except.ok.injEq] at h
    obtain ⟨⟨t, _⟩, haccrue, rfl⟩ := h
    obtain ⟨a, ha⟩ := vault_accrue_ok haccrue
    exact .inr (.inr (.inr (.inr ⟨cosigner, term, amount, a, rfl, ha⟩)))
  | setPaused =>
    simp only [exec, set_paused, Traced.bind_ok, outcome_lift, constraint_ok, outcome_pure,
      Except.ok.injEq] at h
    obtain ⟨-, -, rfl⟩ := h
    exact .inl ⟨rfl, fun _ => Nat.le_refl _⟩
  | sendScad => exact .inl (sendScad_calm h)

end Scadium.Programs.Vault
