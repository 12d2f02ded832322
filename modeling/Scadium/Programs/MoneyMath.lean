/-
Scadium.Programs.MoneyMath — one formula in two languages: the share math of the vault
and the price of a swap, in TypeScript (`packages/shared/src/constants.ts`,
`swap/swap-math.ts`) and in the programs.

The one side has no bound on its numbers, the other has one on each. Where the program
neither overflows nor clamps, both compute the same. A swap at the reserves it was
priced at is accepted with any slippage bound, unless it is priced at nothing: the
program trades nothing for nothing, and the API does not send such a swap.
-/
import Scadium.Programs.Swap.Program
import Scadium.Programs.Vault.Program
import Scadium.Shared.VaultMath

namespace Scadium.Programs.MoneyMath

open Scadium.Lib Scadium.Shared
open Vault (shares_for_deposit assets_for_shares apply_accrual early_exit_penalty)
open Swap (cpmm_out swap SwapState Pool Owner Pubkey)
open Traced

/-! ## Shares -/

theorem shares_for_deposit_agrees {assets index_ray : Nat}
    (h : (shares_for_deposit assets index_ray).Safe) :
    (shares_for_deposit assets index_ray).outcome = .ok (sharesForDeposit assets index_ray) := by
  unfold shares_for_deposit sharesForDeposit at *
  split
  · rfl
  · rename_i hpos
    rw [if_neg hpos, safe_bind, safe_mul] at h
    exact Traced.bind_ok.mpr ⟨_, mul_ok.mpr ⟨h.1, rfl⟩, div_ok.mpr ⟨by omega, rfl⟩⟩

theorem assets_for_shares_agrees {shares index_ray : Nat}
    (h : (assets_for_shares shares index_ray).Safe) :
    (assets_for_shares shares index_ray).outcome = .ok (assetsForShares shares index_ray) := by
  unfold assets_for_shares assetsForShares at *
  split
  · rfl
  · rename_i hpos
    rw [if_neg hpos, safe_bind, safe_mul] at h
    obtain ⟨hmul, hrest⟩ := h
    have hscaled := mul_ok (ε := Vault.VaultError) |>.mpr ⟨hmul, rfl⟩
    have hray : Vault.RAY ≠ 0 := by decide
    have hdiv := div_ok (ε := Vault.VaultError) (a := shares * index_ray) |>.mpr ⟨hray, rfl⟩
    have hfits := safe_clamp.mp ((safe_bind.mp (hrest _ hscaled)).2 _ hdiv)
    refine Traced.bind_ok.mpr ⟨_, hscaled, Traced.bind_ok.mpr ⟨_, hdiv, clamp_ok.mpr ?_⟩⟩
    exact (Nat.min_eq_left hfits).symm

theorem apply_accrual_agrees {index_ray total_shares yield_assets : Nat}
    (h : (apply_accrual index_ray total_shares yield_assets).Safe) :
    (apply_accrual index_ray total_shares yield_assets).outcome =
      .ok (applyAccrual index_ray total_shares yield_assets) := by
  unfold apply_accrual applyAccrual at *
  split
  · rfl
  · rename_i hpos
    rw [if_neg hpos, safe_bind, safe_mul] at h
    obtain ⟨hmul, hrest⟩ := h
    have hscaled := mul_ok (ε := Vault.VaultError) |>.mpr ⟨hmul, rfl⟩
    have hshares : total_shares ≠ 0 := by omega
    have hdiv := div_ok (ε := Vault.VaultError) (a := yield_assets * Vault.RAY) |>.mpr
      ⟨hshares, rfl⟩
    have hfits := safe_add.mp ((safe_bind.mp (hrest _ hscaled)).2 _ hdiv)
    exact Traced.bind_ok.mpr ⟨_, hscaled, Traced.bind_ok.mpr ⟨_, hdiv, add_ok.mpr ⟨hfits, rfl⟩⟩⟩

theorem early_exit_penalty_agrees {assets : Nat} (h : (early_exit_penalty assets).Safe) :
    (early_exit_penalty assets).outcome = .ok (earlyExitPenalty assets) := by
  unfold early_exit_penalty at *
  rw [safe_bind, safe_mul] at h
  obtain ⟨hmul, hrest⟩ := h
  have hscaled := mul_ok (ε := Vault.VaultError) |>.mpr ⟨hmul, rfl⟩
  have hdiv := div_ok (ε := Vault.VaultError) (a := assets * Vault.EARLY_EXIT_PENALTY_BPS)
    (b := 10000) |>.mpr ⟨by omega, rfl⟩
  have hfits := safe_cast.mp ((safe_bind.mp (hrest _ hscaled)).2 _ hdiv)
  refine Traced.bind_ok.mpr ⟨_, hscaled, Traced.bind_ok.mpr ⟨_, hdiv, cast_ok.mpr ?_⟩⟩
  rw [Nat.mod_eq_of_lt (by omega), earlyExitPenalty_eq]
  unfold Vault.EARLY_EXIT_PENALTY_BPS
  omega

/-! ## Swaps -/

/-- `expectedSwapOut` -/
def expectedSwapOut (amountIn reserveIn reserveOut feeBps : Int) : Int :=
  if amountIn ≤ 0 ∨ reserveIn ≤ 0 ∨ reserveOut ≤ 0 then 0
  else
    let inAfterFee := (amountIn * (10000 - feeBps)).tdiv 10000
    (inAfterFee * reserveOut).tdiv (reserveIn + inAfterFee)

/-- `minOutWithSlippage` -/
def minOutWithSlippage (expectedOut maxSlippageBps : Int) : Int :=
  if expectedOut ≤ 0 then 0 else (expectedOut * (10000 - maxSlippageBps)).tdiv 10000

/-- The price of a swap, in natural numbers. -/
def priced (amount_in r_in r_out fee_bps : Nat) : Nat :=
  let in_after_fee := amount_in * (10000 - fee_bps) / 10000
  in_after_fee * r_out / (r_in + in_after_fee)

section

variable {amount_in r_in r_out fee_bps : Nat}

theorem priced_le (hin : 0 < r_in) : priced amount_in r_in r_out fee_bps ≤ r_out := by
  unfold priced
  dsimp only
  generalize amount_in * (10000 - fee_bps) / 10000 = kept
  refine Nat.div_le_of_le_mul ?_
  exact Nat.mul_le_mul_right r_out (by omega)

theorem expectedSwapOut_eq (hin : 0 < r_in) (hfee : fee_bps ≤ 10000) :
    expectedSwapOut amount_in r_in r_out fee_bps = priced amount_in r_in r_out fee_bps := by
  unfold expectedSwapOut priced
  split
  · rename_i hzero
    have hor : amount_in = 0 ∨ r_out = 0 := by omega
    rcases hor with rfl | rfl
    · simp
    · simp
  · have hkeep : (10000 - (fee_bps : Int)) = ((10000 - fee_bps : Nat) : Int) := by omega
    dsimp only
    rw [hkeep]
    norm_cast

/-- No step of the program overflows on a pool that holds something. -/
theorem cpmm_out_eq (hamount : amount_in ≤ U64_MAX) (hin : r_in ≤ U64_MAX)
    (hout : r_out ≤ U64_MAX) (hfee : fee_bps ≤ 10000) (hpos : 0 < r_in) :
    cpmm_out amount_in r_in r_out fee_bps = .ok (priced amount_in r_in r_out fee_bps) := by
  have hscaled : amount_in * (10000 - fee_bps) ≤ U64_MAX * 10000 :=
    Nat.mul_le_mul hamount (by omega)
  have hprice : priced amount_in r_in r_out fee_bps ≤ r_out := priced_le hpos
  unfold priced at *
  dsimp only at *
  generalize hs : amount_in * (10000 - fee_bps) = scaled at *
  have hkept : scaled / 10000 ≤ U64_MAX := by omega
  generalize hk : scaled / 10000 = kept at *
  have hnumer : kept * r_out ≤ U64_MAX * U64_MAX := Nat.mul_le_mul hkept hout
  have hwide : U64_MAX * U64_MAX ≤ U128_MAX ∧ U64_MAX * 10000 ≤ U128_MAX := by decide
  have hlimit : U64_MAX + U64_MAX ≤ U128_MAX := by decide
  have hsum : r_in + kept ≤ U128_MAX := by omega
  simp only [cpmm_out, bind_ok, okOr_ok, checkedMul_some, checkedAdd_some, checkedSub_some,
    tryU64_some, divide_ok, Swap.BPS]
  refine ⟨10000 - fee_bps, ⟨hfee, rfl⟩, scaled, ⟨by omega, hs.symm⟩, kept * r_out,
    ⟨by rw [hk]; omega, by rw [hk]⟩, r_in + kept, ⟨by rw [hk]; omega, by rw [hk]⟩, _,
    ⟨by omega, rfl⟩, by omega, rfl⟩

end

theorem minOutWithSlippage_le {expected bps : Int} (hpos : 0 ≤ expected) (hbps : 0 ≤ bps)
    (hmax : bps ≤ 10000) :
    0 ≤ minOutWithSlippage expected bps ∧ minOutWithSlippage expected bps ≤ expected := by
  unfold minOutWithSlippage
  split
  · omega
  · have hkept : expected * (10000 - bps) ≤ expected * 10000 :=
      Int.mul_le_mul_of_nonneg_left (by omega) hpos
    have hnonneg : 0 ≤ expected * (10000 - bps) := Int.mul_nonneg hpos (by omega)
    rw [Int.tdiv_eq_ediv_of_nonneg hnonneg]
    omega

/-- The reserve a swap is paid into. -/
def reserveIn (s : SwapState) (sol_to_scad : Bool) : Nat :=
  if sol_to_scad then s.solRes else s.scadRes

/-- The reserve a swap is paid out of. -/
def reserveOut (s : SwapState) (sol_to_scad : Bool) : Nat :=
  if sol_to_scad then s.scadRes else s.solRes

/-- What the user holds of what they pay with. -/
def payable (s : SwapState) (user : Pubkey) (sol_to_scad : Bool) : Nat :=
  if sol_to_scad then s.lamports.get (.user user) else s.scad.get (.user user)

/-- A pool to trade with. Of SCAD and of lamports there are no more than an account
could hold. -/
structure Tradable (s : SwapState) (pool : Pool) : Prop where
  found : s.pool = some pool
  scad : 0 < s.scadRes
  sol : 0 < s.solRes
  scad_total : s.scad.total ≤ U64_MAX
  sol_total : s.lamports.total ≤ U64_MAX

section

variable {s : SwapState} {pool : Pool} {user : Pubkey} {sol_to_scad : Bool}
  {amount_in amount_out min_out : Nat}

theorem user_ne_pool (user : Pubkey) : Owner.user user ≠ Owner.pool := by simp

/-- Nobody's account is too full for a transfer. -/
theorem transfer_fits {b : Balances Owner} {src dst : Owner} {amount : Nat} (hne : src ≠ dst)
    (htotal : b.total ≤ U64_MAX) (hle : amount ≤ b.get src) :
    (transfer b src dst amount : Swap.Result (Balances Owner)) = .ok (b.move src dst amount) := by
  have hboth : b.get src + b.get dst ≤ b.total := b.get_add_get_le_total hne
  exact transfer_ok.mpr ⟨hle, fun _ => by omega, rfl⟩

/-- A swap priced at something is accepted with any bound up to its price. -/
theorem swap_accepted (h : Tradable s pool) (hpaid : 0 < amount_in)
    (hheld : amount_in ≤ payable s user sol_to_scad)
    (hprice : cpmm_out amount_in (reserveIn s sol_to_scad) (reserveOut s sol_to_scad)
      pool.fee_bps = .ok amount_out)
    (hreserve : amount_out ≤ reserveOut s sol_to_scad)
    (hmin : min_out ≤ amount_out) (hpos : 0 < amount_out) :
    ∃ s', swap s user sol_to_scad amount_in min_out =
      .ok (s', ⟨user, sol_to_scad, amount_in, amount_out⟩) := by
  have hfound : s.getPool = .ok pool := by simp [SwapState.getPool, h.found]
  simp only [swap, bind_ok, require_ok]
  cases sol_to_scad with
  | true =>
    have hlamports := transfer_fits (user_ne_pool user) h.sol_total hheld
    have hscad := transfer_fits (user_ne_pool user).symm h.scad_total hreserve
    refine ⟨{ s with
      scad := s.scad.move .pool (.user user) amount_out
      lamports := s.lamports.move (.user user) .pool amount_in }, pool, hfound, (), hpaid, (),
      ⟨h.scad, h.sol⟩, amount_out, hprice, (), ⟨hmin, hpos⟩, ?_⟩
    simp only [if_true, bind_ok]
    exact ⟨_, hlamports, _, hscad, rfl⟩
  | false =>
    have hscad := transfer_fits (user_ne_pool user) h.scad_total hheld
    have hlamports := transfer_fits (user_ne_pool user).symm h.sol_total hreserve
    refine ⟨{ s with
      scad := s.scad.move (.user user) .pool amount_in
      lamports := s.lamports.move .pool (.user user) amount_out }, pool, hfound, (), hpaid, (),
      ⟨h.scad, h.sol⟩, amount_out, hprice, (), ⟨hmin, hpos⟩, ?_⟩
    simp only [Bool.false_eq_true, if_false, bind_ok]
    exact ⟨_, hscad, _, hlamports, rfl⟩

/-- The output expected of a swap at the reserves of the pool. -/
def expectedOut (s : SwapState) (pool : Pool) (sol_to_scad : Bool) (amount_in : Nat) : Int :=
  expectedSwapOut amount_in (reserveIn s sol_to_scad) (reserveOut s sol_to_scad) pool.fee_bps

theorem swap_expected (h : Tradable s pool)
    (hheld : amount_in ≤ payable s user sol_to_scad)
    (hpos : 0 < expectedOut s pool sol_to_scad amount_in) {bps : Int} (hbps : 0 ≤ bps)
    (hmax : bps ≤ 10000) :
    ∃ s', swap s user sol_to_scad amount_in
        (minOutWithSlippage (expectedOut s pool sol_to_scad amount_in) bps).toNat =
      .ok (s', ⟨user, sol_to_scad, amount_in,
        (expectedOut s pool sol_to_scad amount_in).toNat⟩) := by
  have hscad := s.scad.get_le_total .pool
  have hsol := s.lamports.get_le_total .pool
  have hin : 0 < reserveIn s sol_to_scad ∧ reserveIn s sol_to_scad ≤ U64_MAX := by
    have := h.scad
    have := h.sol
    have := h.scad_total
    have := h.sol_total
    unfold reserveIn SwapState.scadRes SwapState.solRes at *
    split <;> omega
  have hout : reserveOut s sol_to_scad ≤ U64_MAX := by
    have := h.scad_total
    have := h.sol_total
    unfold reserveOut SwapState.scadRes SwapState.solRes
    split <;> omega
  have hfee : pool.fee_bps ≤ 10000 := by
    have := pool.fee_lt
    omega
  have hamount : amount_in ≤ U64_MAX := by
    have hl := s.lamports.get_le_total (.user user)
    have hs := s.scad.get_le_total (.user user)
    have := h.scad_total
    have := h.sol_total
    unfold payable at hheld
    split at hheld <;> omega
  have heq : expectedOut s pool sol_to_scad amount_in =
      priced amount_in (reserveIn s sol_to_scad) (reserveOut s sol_to_scad) pool.fee_bps :=
    expectedSwapOut_eq hin.1 hfee
  have hpaid : 0 < amount_in := by
    by_contra hzero
    obtain rfl : amount_in = 0 := by omega
    simp [expectedOut, expectedSwapOut] at hpos
  have hmin := (minOutWithSlippage_le hpos.le hbps hmax).2
  rw [heq] at hpos hmin ⊢
  rw [Int.toNat_natCast]
  exact swap_accepted h hpaid hheld (cpmm_out_eq hamount hin.2 hout hfee hin.1) (priced_le hin.1)
    (by omega) (by omega)

end

/-! ## Agreement -/

/-- The four helpers of the vault return what the formulas of `@scadium/shared` do, on
what the program does exactly; a swap is priced alike on both sides wherever there is
something to trade with; and one priced at something is accepted with any slippage. -/
theorem money_math_agrees :
    (∀ assets index_ray, (shares_for_deposit assets index_ray).Safe →
      (shares_for_deposit assets index_ray).outcome = .ok (sharesForDeposit assets index_ray)) ∧
    (∀ shares index_ray, (assets_for_shares shares index_ray).Safe →
      (assets_for_shares shares index_ray).outcome = .ok (assetsForShares shares index_ray)) ∧
    (∀ index_ray total_shares yield_assets,
      (apply_accrual index_ray total_shares yield_assets).Safe →
        (apply_accrual index_ray total_shares yield_assets).outcome =
          .ok (applyAccrual index_ray total_shares yield_assets)) ∧
    (∀ assets, (early_exit_penalty assets).Safe →
      (early_exit_penalty assets).outcome = .ok (earlyExitPenalty assets)) ∧
    (∀ amount_in r_in r_out fee_bps : Nat, amount_in ≤ U64_MAX → 0 < r_in → r_in ≤ U64_MAX →
      r_out ≤ U64_MAX → fee_bps ≤ 10000 → ∃ amount_out,
        cpmm_out amount_in r_in r_out fee_bps = .ok amount_out ∧
          expectedSwapOut amount_in r_in r_out fee_bps = amount_out) ∧
    ∀ (s : SwapState) (pool : Pool) (user : Pubkey) (sol_to_scad : Bool) (amount_in : Nat)
      (bps : Int), Tradable s pool → amount_in ≤ payable s user sol_to_scad →
      0 < expectedOut s pool sol_to_scad amount_in → 0 ≤ bps → bps ≤ 10000 →
        ∃ s', swap s user sol_to_scad amount_in
            (minOutWithSlippage (expectedOut s pool sol_to_scad amount_in) bps).toNat =
          .ok (s', ⟨user, sol_to_scad, amount_in,
            (expectedOut s pool sol_to_scad amount_in).toNat⟩) := by
  refine ⟨fun _ _ h => shares_for_deposit_agrees h, fun _ _ h => assets_for_shares_agrees h,
    fun _ _ _ h => apply_accrual_agrees h, fun _ h => early_exit_penalty_agrees h, ?_, ?_⟩
  · intro amount_in r_in r_out fee_bps hamount hpos hin hout hfee
    exact ⟨_, cpmm_out_eq hamount hin hout hfee hpos, expectedSwapOut_eq hpos hfee⟩
  · intro s pool user sol_to_scad amount_in bps h hheld hpos hbps hmax
    exact swap_expected h hheld hpos hbps hmax

namespace Sample

/-- A pool of a thousand units each way, at 1%, and a user with a hundred lamports. -/
def traded : SwapState :=
  ⟨some ⟨100, by decide⟩, ⟨[(.pool, 1000)]⟩, ⟨[(.pool, 1000), (.user 7, 100)]⟩, ⟨1000, .empty⟩⟩

/-- One lamport buys nothing of a pool with a reserve of one unit. -/
def dust : SwapState :=
  ⟨some ⟨100, by decide⟩, ⟨[(.pool, 1)]⟩, ⟨[(.pool, 1000), (.user 7, 100)]⟩, ⟨1000, .empty⟩⟩

theorem traded_tradable : Tradable traded ⟨100, by decide⟩ where
  found := rfl
  scad := by decide
  sol := by decide
  scad_total := by decide
  sol_total := by decide

theorem money_math_agrees_traded :
    (shares_for_deposit 5 3).outcome = .ok (sharesForDeposit 5 3) ∧
    (assets_for_shares 5 3).outcome = .ok (assetsForShares 5 3) ∧
    (apply_accrual 5 3 2).outcome = .ok (applyAccrual 5 3 2) ∧
    (early_exit_penalty 50).outcome = .ok (earlyExitPenalty 50) ∧
    (∃ amount_out, cpmm_out 100 1000 1000 100 = .ok amount_out ∧
      expectedSwapOut 100 1000 1000 100 = amount_out) ∧
    ∃ s', swap traded 7 true 100
      (minOutWithSlippage (expectedOut traded ⟨100, by decide⟩ true 100) 100).toNat =
        .ok (s', ⟨7, true, 100, (expectedOut traded ⟨100, by decide⟩ true 100).toNat⟩) := by
  obtain ⟨hshares, hassets, haccrual, hpenalty, hprice, hswap⟩ := money_math_agrees
  refine ⟨hshares 5 3 ?_, hassets 5 3 ?_, haccrual 5 3 2 ?_, hpenalty 50 ?_,
    hprice 100 1000 1000 100 (by decide) (by decide) (by decide) (by decide) (by decide),
    hswap traded ⟨100, by decide⟩ 7 true 100 100 traded_tradable (by decide) (by decide)
      (by decide) (by decide)⟩
  · simp [shares_for_deposit, safe_bind, Vault.RAY, U128_MAX]
  · simp [assets_for_shares, safe_bind, Vault.RAY, U128_MAX, U64_MAX]
  · simp [apply_accrual, safe_bind, Vault.RAY, U128_MAX]
  · simp [early_exit_penalty, safe_bind, Vault.EARLY_EXIT_PENALTY_BPS, U128_MAX, U64_MAX]

/-- An empty reserve pays out the other side whole in the program, and nothing in the
TypeScript; a swap priced at nothing is refused with the bound the API computes. -/
theorem money_math_differs :
    cpmm_out 1000 0 5 100 = .ok 5 ∧ expectedSwapOut 1000 0 5 100 = 0 ∧
    minOutWithSlippage (expectedOut dust ⟨100, by decide⟩ true 1) 100 = 0 ∧
    swap dust 7 true 1 0 = .error (.error .slippageExceeded) :=
  ⟨rfl, rfl, rfl, rfl⟩

end Sample

end Scadium.Programs.MoneyMath
