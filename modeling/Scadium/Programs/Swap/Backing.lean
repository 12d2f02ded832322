/-
Scadium.Programs.Swap.Backing — the LP tokens are backed by the reserves,
in every state the program reaches.

`Inv` says that the LP supply is what the LP accounts hold, that it is 0 or
the pool itself holds the locked minimum, and that its square is at most
the product of the reserves. Each instruction has one lemma that says what
it did (`*_ok`); from it the instruction keeps `Inv`, and the worth of a
share, `scad * sol / lp ^ 2`, does not fall.
-/
import Mathlib.Data.Nat.Sqrt
import Scadium.Lib.ConstantProduct
import Scadium.Lib.Runs
import Scadium.Programs.Swap.Program

namespace Scadium.Programs.Swap

open Scadium.Lib Scadium.Lib.ConstantProduct

/-! ## The square root -/

/-- Newton's step does not fall below the root. -/
theorem sqrt_le_newton {v x : Nat} (hx : 0 < x) : Nat.sqrt v ≤ (x + v / x) / 2 := by
  have hsq : Nat.sqrt v * Nat.sqrt v ≤ v := Nat.sqrt_le v
  generalize Nat.sqrt v = r at hsq
  have hdiv : 2 * r - x ≤ v / x := by
    rw [Nat.le_div_iff_mul_le hx]
    rcases Nat.le_total (2 * r) x with h | h
    · rw [Nat.sub_eq_zero_of_le h]
      omega
    · obtain ⟨d, _⟩ := Nat.exists_eq_add_of_le h
      rw [show 2 * r - x = d by omega]
      nlinarith [sq_nonneg ((r : Int) - x), sq_nonneg ((x : Int) - d)]
  omega

/-- The loop, from above the root. -/
theorem sqrtLoop_eq {v x y : Nat} (hv : 0 < v) (hx : Nat.sqrt v ≤ x) (hy : Nat.sqrt v ≤ y)
    (hnext : y < x ∨ y = (x + v / x) / 2) : sqrtLoop v x y = Nat.sqrt v := by
  have hroot : 0 < Nat.sqrt v := Nat.sqrt_pos.mpr hv
  induction x using Nat.strong_induction_on generalizing y with
  | _ x ih =>
    rw [sqrtLoop]
    split
    case isTrue hlt => exact ih y hlt hy (sqrt_le_newton (by omega)) (.inr rfl)
    case isFalse hge =>
      -- the step did not go down any more
      have hle : x ≤ v / x := by omega
      have hsq : x * x ≤ v := (Nat.le_div_iff_mul_le (by omega)).mp hle
      exact Nat.le_antisymm (Nat.le_sqrt.mpr hsq) hx

theorem integer_sqrt_eq (v : Nat) : integer_sqrt v = Nat.sqrt v := by
  unfold integer_sqrt
  split
  case isTrue h =>
    obtain rfl | rfl : v = 0 ∨ v = 1 := by omega
    · rfl
    · rfl
  case isFalse h =>
    have hhalf : v ⌈/⌉ 2 = (v + 1) / 2 := rfl
    rw [hhalf]
    refine sqrtLoop_eq (by omega) (Nat.sqrt_le_self v) ?_ (.inl (by omega))
    have hnewton : Nat.sqrt v ≤ (v + v / v) / 2 := sqrt_le_newton (by omega)
    rwa [Nat.div_self (by omega)] at hnewton

/-! ## What the amounts are -/

variable {s s' : SwapState} {user : Pubkey} {event : LiquidityChanged}

theorem first_lp_split_ok {scad_amount sol_amount : Nat} {r : Nat × Nat}
    (h : first_lp_split scad_amount sol_amount = .ok r) :
    r.1 = MINIMUM_LIQUIDITY ∧ MINIMUM_LIQUIDITY < Nat.sqrt (scad_amount * sol_amount) ∧
      r.1 + r.2 = Nat.sqrt (scad_amount * sol_amount) := by
  simp only [first_lp_split, bind_ok, okOr_ok, checkedMul_some, tryU64_some, require_ok,
    integer_sqrt_eq] at h
  obtain ⟨_, ⟨-, rfl⟩, _, ⟨-, rfl⟩, -, hmin, hr⟩ := h
  cases hr
  exact ⟨rfl, hmin, by simp; omega⟩

theorem need_ok {lp res lp_supply amount : Nat} (h : need lp res lp_supply = .ok amount) :
    amount = lp * res ⌈/⌉ lp_supply := by
  simp only [need, bind_ok, okOr_ok, checkedMul_some, divCeil_ok, tryU64_some] at h
  obtain ⟨_, ⟨-, rfl⟩, _, ⟨-, rfl⟩, -, rfl⟩ := h
  rfl

theorem lpFrom_ok {amount lp_supply res lp : Nat} (h : lpFrom amount lp_supply res = .ok lp) :
    lp = amount * lp_supply / res := by
  simp only [lpFrom, bind_ok, okOr_ok, checkedMul_some, divide_ok] at h
  obtain ⟨_, ⟨-, rfl⟩, -, rfl⟩ := h
  rfl

theorem payout_ok {lp_amount res lp_supply amount : Nat}
    (h : payout lp_amount res lp_supply = .ok amount) : amount = lp_amount * res / lp_supply := by
  simp only [payout, bind_ok, okOr_ok, checkedMul_some, divide_ok, tryU64_some] at h
  obtain ⟨_, ⟨-, rfl⟩, _, ⟨-, rfl⟩, -, rfl⟩ := h
  rfl

theorem cpmm_out_ok {amount_in r_in r_out fee_bps amount : Nat}
    (h : cpmm_out amount_in r_in r_out fee_bps = .ok amount) :
    ∃ net, net ≤ amount_in ∧ amount = net * r_out / (r_in + net) := by
  simp only [cpmm_out, bind_ok, okOr_ok, checkedMul_some, checkedAdd_some, checkedSub_some,
    divide_ok, tryU64_some] at h
  obtain ⟨_, ⟨-, rfl⟩, _, ⟨-, rfl⟩, _, ⟨-, rfl⟩, _, ⟨-, rfl⟩, _,
    ⟨-, rfl⟩, -, rfl⟩ := h
  refine ⟨amount_in * (BPS - fee_bps) / BPS, ?_, rfl⟩
  refine Nat.div_le_of_le_mul ?_
  rw [Nat.mul_comm BPS]
  exact Nat.mul_le_mul_left _ (Nat.sub_le _ _)

/-- The first add mints the root of the product, and locks a part of it. -/
theorem addAmounts_first {scad_amount sol_amount scad_res sol_res : Nat} {a : AddAmounts}
    (h : addAmounts scad_amount sol_amount scad_res sol_res 0 = .ok a) :
    a.scad_in = scad_amount ∧ a.sol_in = sol_amount ∧ a.lp_locked = MINIMUM_LIQUIDITY ∧
      a.lp_out + a.lp_locked = Nat.sqrt (scad_amount * sol_amount) := by
  rw [addAmounts, if_pos rfl, bind_ok] at h
  obtain ⟨_, hsplit, ha⟩ := h
  obtain ⟨hlocked, -, _⟩ := first_lp_split_ok hsplit
  cases ha
  exact ⟨rfl, rfl, hlocked, by simp only; omega⟩

/-- A later add takes of each reserve what its shares are worth, rounded up,
and mints no more than each side is good for. -/
theorem addAmounts_later {scad_amount sol_amount scad_res sol_res lp_supply : Nat}
    {a : AddAmounts} (hl : 0 < lp_supply)
    (h : addAmounts scad_amount sol_amount scad_res sol_res lp_supply = .ok a) :
    a.scad_in = a.lp_out * scad_res ⌈/⌉ lp_supply ∧
      a.sol_in = a.lp_out * sol_res ⌈/⌉ lp_supply ∧ a.lp_locked = 0 ∧
      a.lp_out ≤ scad_amount * lp_supply / scad_res ∧
      a.lp_out ≤ sol_amount * lp_supply / sol_res := by
  rw [addAmounts, if_neg (by omega)] at h
  simp only [bind_ok, okOr_ok, tryU64_some] at h
  obtain ⟨_, hfs, _, hfl, _, hns, _, hnl, _, ⟨-, rfl⟩, ha⟩ := h
  cases ha
  have hscad := lpFrom_ok hfs
  have hsol := lpFrom_ok hfl
  refine ⟨need_ok hns, need_ok hnl, rfl, ?_, ?_⟩
  · exact hscad ▸ Nat.min_le_left _ _
  · exact hsol ▸ Nat.min_le_right _ _

/-! ## What each instruction did -/

/-- A pool, or no error: the constraint on the pool account. -/
theorem getPool_ok {pool : Pool} (h : s.getPool = .ok pool) : s.pool = some pool := by
  unfold SwapState.getPool at h
  split at h
  · cases h
    assumption
  · cases h

/-- What `add_liquidity` did. -/
structure Added (s s' : SwapState) (user : Pubkey) (a : AddAmounts) : Prop where
  scad_le : a.scad_in ≤ s.scad.get (.user user)
  sol_le : a.sol_in ≤ s.lamports.get (.user user)
  out_pos : 0 < a.lp_out
  pool : s'.pool = s.pool
  scad : s'.scad = s.scad.move (.user user) .pool a.scad_in
  lamports : s'.lamports = s.lamports.move (.user user) .pool a.sol_in
  supply : s'.lp.supply = s.lp.supply + a.lp_out + a.lp_locked
  locked : s'.lp.accounts.get .pool = s.lp.accounts.get .pool + a.lp_locked
  minted : s'.lp.accounts.get (.user user) = s.lp.accounts.get (.user user) + a.lp_out
  sound : s.lp.Sound → s'.lp.Sound

theorem add_liquidity_ok {scad_amount sol_amount min_lp : Nat}
    (h : add_liquidity s user scad_amount sol_amount min_lp = .ok (s', event)) :
    ∃ a, 0 < scad_amount ∧ 0 < sol_amount ∧ Added s s' user a ∧
      addAmounts scad_amount sol_amount s.scadRes s.solRes s.lp.supply = .ok a ∧
      event = ⟨user, true, a.scad_in, a.sol_in, a.lp_out⟩ := by
  simp only [add_liquidity, bind_ok, require_ok, transfer_ok, mintTo_ok] at h
  obtain ⟨pool, -, -, ⟨hscad, hsol⟩, a, ha, -, ⟨-, hout⟩, scad, ⟨hle, -, rfl⟩, lamports,
    ⟨hle', -, rfl⟩, _, ⟨-, rfl⟩, _, hlp, hr⟩ := h
  cases hr
  refine ⟨a, hscad, hsol, ?_, ha, rfl⟩
  unfold lockShares at hlp
  split at hlp
  case isTrue hlocked =>
    obtain ⟨-, rfl⟩ := mintTo_ok.mp hlp
    exact
      { scad_le := hle, sol_le := hle', out_pos := hout, pool := rfl, scad := rfl, lamports := rfl
        supply := rfl
        locked := by simp [Balances.get_credit_ne]
        minted := by simp [Balances.get_credit_ne]
        sound := fun hs => by
          unfold Mint.Sound at *
          simp [hs] }
  case isFalse hlocked =>
    cases hlp
    have hzero : a.lp_locked = 0 := by omega
    exact
      { scad_le := hle, sol_le := hle', out_pos := hout, pool := rfl, scad := rfl, lamports := rfl
        supply := by simp [hzero]
        locked := by simp [Balances.get_credit_ne, hzero]
        minted := by simp
        sound := fun hs => by
          unfold Mint.Sound at *
          simp [hs] }

/-- What `remove_liquidity` did. -/
structure Removed (s s' : SwapState) (user : Pubkey) (lp_amount scad_out sol_out : Nat) :
    Prop where
  scad_eq : scad_out = lp_amount * s.scadRes / s.lp.supply
  sol_eq : sol_out = lp_amount * s.solRes / s.lp.supply
  lp_le : lp_amount ≤ s.lp.accounts.get (.user user)
  scad_le : scad_out ≤ s.scadRes
  sol_le : sol_out ≤ s.solRes
  supply_pos : 0 < s.lp.supply
  pool : s'.pool = s.pool
  scad : s'.scad = s.scad.move .pool (.user user) scad_out
  lamports : s'.lamports = s.lamports.move .pool (.user user) sol_out
  lp : s'.lp = ⟨s.lp.supply - lp_amount, s.lp.accounts.debit (.user user) lp_amount⟩

theorem remove_liquidity_ok {lp_amount min_scad min_sol : Nat}
    (h : remove_liquidity s user lp_amount min_scad min_sol = .ok (s', event)) :
    Removed s s' user lp_amount event.scad event.sol := by
  simp only [remove_liquidity, bind_ok, require_ok, transfer_ok, burn_ok] at h
  obtain ⟨_, -, -, -, -, hpos, _, hscad, _, hsol, -, -, _, ⟨hle, rfl⟩, _,
    ⟨hs, -, rfl⟩, _, ⟨hl, -, rfl⟩, hr⟩ := h
  cases hr
  exact ⟨payout_ok hscad, payout_ok hsol, hle, hs, hl, hpos, rfl, rfl, rfl, rfl⟩

/-- What `swap` did; `net` of the input is what buys. -/
structure Traded (s s' : SwapState) (user : Pubkey) (sol_to_scad : Bool)
    (amount_in amount_out : Nat) : Prop where
  scad_pos : 0 < s.scadRes
  sol_pos : 0 < s.solRes
  pool : s'.pool = s.pool
  lp : s'.lp = s.lp
  curve : ∃ net, net ≤ amount_in ∧ amount_out =
    if sol_to_scad then net * s.scadRes / (s.solRes + net)
    else net * s.solRes / (s.scadRes + net)
  scad : s'.scad = if sol_to_scad then s.scad.move .pool (.user user) amount_out
    else s.scad.move (.user user) .pool amount_in
  lamports : s'.lamports = if sol_to_scad then s.lamports.move (.user user) .pool amount_in
    else s.lamports.move .pool (.user user) amount_out
  paid_le : amount_in ≤ if sol_to_scad then s.lamports.get (.user user)
    else s.scad.get (.user user)

theorem swap_ok {sol_to_scad : Bool} {amount_in min_amount_out : Nat} {event : Swapped}
    (h : swap s user sol_to_scad amount_in min_amount_out = .ok (s', event)) :
    Traded s s' user sol_to_scad amount_in event.amount_out := by
  simp only [swap, bind_ok, require_ok] at h
  obtain ⟨_, -, -, -, -, ⟨hscad, hsol⟩, _, hout, -, -, h⟩ := h
  obtain ⟨net, hnet, heq⟩ := cpmm_out_ok hout
  cases sol_to_scad with
  | true =>
    simp only [if_true, bind_ok, transfer_ok] at h heq
    obtain ⟨lamports, ⟨hle, -, rfl⟩, scad, ⟨-, -, rfl⟩, hr⟩ := h
    cases hr
    exact ⟨hscad, hsol, rfl, rfl, ⟨net, hnet, heq⟩, rfl, rfl, hle⟩
  | false =>
    simp only [Bool.false_eq_true, if_false, bind_ok, transfer_ok] at h heq
    obtain ⟨_, ⟨hle, -, rfl⟩, _, ⟨-, -, rfl⟩, hr⟩ := h
    cases hr
    exact ⟨hscad, hsol, rfl, rfl, ⟨net, hnet, heq⟩, rfl, rfl, hle⟩

/-- A transaction that leaves the LP supply alone and takes nothing out of
the pool's accounts. -/
structure Fed (s s' : SwapState) : Prop where
  scad : s.scadRes ≤ s'.scadRes
  sol : s.solRes ≤ s'.solRes
  supply : s'.lp.supply = s.lp.supply
  locked : s.lp.accounts.get .pool ≤ s'.lp.accounts.get .pool
  sound : s.lp.Sound → s'.lp.Sound

/-- A transfer by a user takes nothing out of the pool's account. -/
theorem pool_le_move {b : Balances Owner} {src : Pubkey} {dst : Owner} {amount : Nat} :
    b.get .pool ≤ (b.move (.user src) dst amount).get .pool := by
  cases dst with
  | pool =>
    rw [Balances.get_move_dst _ (by simp)]
    omega
  | user => rw [Balances.get_move_other _ (by simp) (by simp)]

variable {rentFloor : Nat} {act : Act}

/-- What a transaction that lands did. -/
theorem exec_cases (h : exec rentFloor s act = .ok s') :
    Fed s s' ∨
    (∃ user scad_amount sol_amount min_lp a,
      act = .addLiquidity user scad_amount sol_amount min_lp ∧
      Added s s' user a ∧
      addAmounts scad_amount.toNat sol_amount.toNat s.scadRes s.solRes s.lp.supply = .ok a) ∨
    (∃ user lp_amount scad_out sol_out, Removed s s' user lp_amount scad_out sol_out) ∨
    ∃ user sol_to_scad amount_in amount_out, Traded s s' user sol_to_scad amount_in amount_out := by
  cases act with
  | initPool =>
    left
    simp only [exec, init_pool] at h
    split at h
    · cases h
    · split at h
      · simp only [bind_ok, transfer_ok] at h
        obtain ⟨lamports, ⟨-, -, rfl⟩, hr⟩ := h
        cases hr
        exact ⟨Nat.le_refl _, pool_le_move, rfl, Nat.le_refl _, id⟩
      · cases h
  | addLiquidity user scad_amount sol_amount min_lp =>
    simp only [exec, bind_ok] at h
    obtain ⟨⟨t, event⟩, hadd, ht⟩ := h
    cases ht
    obtain ⟨a, -, -, hadded, hamounts, -⟩ := add_liquidity_ok hadd
    exact .inr (.inl ⟨user, scad_amount, sol_amount, min_lp, a, rfl, hadded, hamounts⟩)
  | removeLiquidity user =>
    simp only [exec, bind_ok] at h
    obtain ⟨⟨t, event⟩, hremove, ht⟩ := h
    cases ht
    exact .inr (.inr (.inl ⟨user, _, _, _, remove_liquidity_ok hremove⟩))
  | swap user =>
    simp only [exec, bind_ok] at h
    obtain ⟨⟨t, _⟩, hswap, ht⟩ := h
    cases ht
    exact .inr (.inr (.inr ⟨user, _, _, _, swap_ok hswap⟩))
  | sendScad =>
    left
    simp only [exec, bind_ok, transfer_ok] at h
    obtain ⟨_, ⟨-, -, rfl⟩, hr⟩ := h
    cases hr
    exact ⟨pool_le_move, Nat.le_refl _, rfl, Nat.le_refl _, id⟩
  | sendSol =>
    left
    simp only [exec, bind_ok, transfer_ok] at h
    obtain ⟨_, ⟨-, -, rfl⟩, hr⟩ := h
    cases hr
    exact ⟨Nat.le_refl _, pool_le_move, rfl, Nat.le_refl _, id⟩
  | sendLp src dst amount =>
    left
    simp only [exec, bind_ok, transfer_ok] at h
    obtain ⟨_, ⟨hle, -, rfl⟩, hr⟩ := h
    cases hr
    refine ⟨Nat.le_refl _, Nat.le_refl _, rfl, pool_le_move, ?_⟩
    intro hsound
    show (s.lp.accounts.move (.user src) dst amount.toNat).total = s.lp.supply
    rw [s.lp.accounts.total_move hle, hsound]

/-! ## The reserves afterwards -/

theorem Added.scadRes {a : AddAmounts} (h : Added s s' user a) :
    s'.scadRes = s.scadRes + a.scad_in := by
  rw [SwapState.scadRes, h.scad, Balances.get_move_dst _ (by simp)]
  rfl

theorem Added.solRes {a : AddAmounts} (h : Added s s' user a) :
    s'.solRes = s.solRes + a.sol_in := by
  rw [SwapState.solRes, h.lamports, Balances.get_move_dst _ (by simp)]
  rfl

section Removed

variable {lp_amount scad_out sol_out : Nat}

theorem Removed.scadRes (h : Removed s s' user lp_amount scad_out sol_out) :
    s'.scadRes = s.scadRes - scad_out := by
  rw [SwapState.scadRes, h.scad, Balances.get_move_src _ (by simp)]
  rfl

theorem Removed.solRes (h : Removed s s' user lp_amount scad_out sol_out) :
    s'.solRes = s.solRes - sol_out := by
  rw [SwapState.solRes, h.lamports, Balances.get_move_src _ (by simp)]
  rfl

end Removed

section Traded

variable {sol_to_scad : Bool} {amount_in amount_out : Nat}

theorem Traded.scadRes (h : Traded s s' user sol_to_scad amount_in amount_out) :
    s'.scadRes = if sol_to_scad then s.scadRes - amount_out else s.scadRes + amount_in := by
  rw [SwapState.scadRes, h.scad]
  cases sol_to_scad with
  | true => exact Balances.get_move_src _ (by simp)
  | false => exact Balances.get_move_dst _ (by simp)

theorem Traded.solRes (h : Traded s s' user sol_to_scad amount_in amount_out) :
    s'.solRes = if sol_to_scad then s.solRes + amount_in else s.solRes - amount_out := by
  rw [SwapState.solRes, h.lamports]
  cases sol_to_scad with
  | true => exact Balances.get_move_dst _ (by simp)
  | false => exact Balances.get_move_src _ (by simp)

/-- A swap does not lower the product of the reserves. -/
theorem Traded.product_le (h : Traded s s' user sol_to_scad amount_in amount_out) :
    s.scadRes * s.solRes ≤ s'.scadRes * s'.solRes := by
  obtain ⟨_, hnet, hout⟩ := h.curve
  rw [h.scadRes, h.solRes, hout]
  cases sol_to_scad with
  | true =>
    have hproduct := trade_product_le (y := s.scadRes) h.sol_pos hnet
    simpa [Nat.mul_comm] using hproduct
  | false => exact trade_product_le h.scad_pos hnet

/-- A swap does not empty a side of the pool. -/
theorem Traded.pos (h : Traded s s' user sol_to_scad amount_in amount_out) :
    0 < s'.scadRes ∧ 0 < s'.solRes := by
  have hproduct := h.product_le
  have hpos : 0 < s'.scadRes * s'.solRes :=
    Nat.lt_of_lt_of_le (Nat.mul_pos h.scad_pos h.sol_pos) hproduct
  exact ⟨Nat.pos_of_mul_pos_right hpos, Nat.pos_of_mul_pos_left hpos⟩

end Traded

/-! ## The invariant -/

/-- The supply is what the accounts hold, 0 or with the locked minimum in
the pool's own account, and backed by the reserves. -/
structure Inv (s : SwapState) : Prop where
  sound : s.lp.Sound
  locked : s.lp.supply = 0 ∨ MINIMUM_LIQUIDITY ≤ s.lp.accounts.get .pool
  backed : Backed s.scadRes s.solRes s.lp.supply

/-- A share of `s'` is worth at least a share of `s`. -/
def SwapState.WorthLe (s s' : SwapState) : Prop :=
  ConstantProduct.WorthLe s.scadRes s.solRes s.lp.supply s'.scadRes s'.solRes s'.lp.supply

theorem inv_initial (scad lamports : Balances Owner) : Inv (.initial scad lamports) where
  sound := rfl
  locked := .inl rfl
  backed := Nat.zero_le _

theorem Inv.minimum (hi : Inv s) : s.lp.supply = 0 ∨ MINIMUM_LIQUIDITY ≤ s.lp.supply := by
  rcases hi.locked with hzero | hlocked
  · exact .inl hzero
  · have htotal := s.lp.accounts.get_le_total .pool
    rw [hi.sound] at htotal
    exact .inr (by omega)

theorem Fed.worth (h : Fed s s') : s.WorthLe s' := by
  unfold SwapState.WorthLe
  rw [h.supply]
  exact .of_product (Nat.mul_le_mul h.scad h.sol)

/-- An add to a pool with shares. -/
theorem Added.worth {a : AddAmounts} {scad_amount sol_amount : Nat} (h : Added s s' user a)
    (ha : addAmounts scad_amount sol_amount s.scadRes s.solRes s.lp.supply = .ok a)
    (hl : 0 < s.lp.supply) : s.WorthLe s' := by
  obtain ⟨hscad, hsol, hlocked, -, -⟩ := addAmounts_later hl ha
  unfold SwapState.WorthLe
  rw [h.scadRes, h.solRes, h.supply, hlocked, hscad, hsol]
  exact .of_each (deposit_keeps_pace hl) (deposit_keeps_pace hl)

theorem Removed.worth {lp_amount scad_out sol_out : Nat}
    (h : Removed s s' user lp_amount scad_out sol_out) : s.WorthLe s' := by
  unfold SwapState.WorthLe
  rw [h.scadRes, h.solRes, h.lp, h.scad_eq, h.sol_eq]
  exact .of_each (withdraw_keeps_pace _) (withdraw_keeps_pace _)

theorem Traded.worth {sol_to_scad : Bool} {amount_in amount_out : Nat}
    (h : Traded s s' user sol_to_scad amount_in amount_out) : s.WorthLe s' := by
  unfold SwapState.WorthLe
  rw [h.lp]
  exact .of_product h.product_le

/-- No transaction lowers the worth of a share. -/
theorem worth_step (h : step rentFloor s act = some s') (hl : 0 < s.lp.supply) :
    s.WorthLe s' := by
  rcases exec_cases (step_ok.mp h) with hfed | ⟨_, _, _, _, a, _, hadd, ha⟩ |
    ⟨_, _, _, _, hremove⟩ | ⟨_, _, _, _, htrade⟩
  · exact hfed.worth
  · exact hadd.worth ha hl
  · exact hremove.worth
  · exact htrade.worth

/-- The first add. -/
theorem Added.backed_first {a : AddAmounts} {scad_amount sol_amount : Nat}
    (h : Added s s' user a)
    (ha : addAmounts scad_amount sol_amount s.scadRes s.solRes s.lp.supply = .ok a)
    (hl : s.lp.supply = 0) : Backed s'.scadRes s'.solRes s'.lp.supply := by
  rw [hl] at ha
  obtain ⟨hscad, hsol, -, hsum⟩ := addAmounts_first ha
  have hroot : Backed scad_amount sol_amount (a.lp_out + a.lp_locked) := by
    unfold Backed
    rw [hsum]
    exact Nat.sqrt_le _
  rw [h.scadRes, h.solRes, h.supply, hl, hscad, hsol, Nat.zero_add]
  exact hroot.mono (Nat.le_add_left _ _) (Nat.le_add_left _ _)

theorem Added.locked_le {a : AddAmounts} {scad_amount sol_amount : Nat} (hi : Inv s)
    (h : Added s s' user a)
    (ha : addAmounts scad_amount sol_amount s.scadRes s.solRes s.lp.supply = .ok a) :
    MINIMUM_LIQUIDITY ≤ s'.lp.accounts.get .pool := by
  rw [h.locked]
  rcases hi.locked with hzero | hlocked
  · rw [hzero] at ha
    obtain ⟨-, -, _, -⟩ := addAmounts_first ha
    omega
  · omega

/-- Whoever burns leaves the locked shares alone. -/
theorem Removed.locked {lp_amount scad_out sol_out : Nat}
    (h : Removed s s' user lp_amount scad_out sol_out) :
    s'.lp.accounts.get .pool = s.lp.accounts.get .pool := by
  rw [h.lp]
  exact Balances.get_debit_ne _ (by simp)

theorem Removed.sound {lp_amount scad_out sol_out : Nat} (hs : s.lp.Sound)
    (h : Removed s s' user lp_amount scad_out sol_out) : s'.lp.Sound := by
  have hburn : (s.lp.burn (.user user) lp_amount : Result (Mint Owner)) = .ok s'.lp :=
    burn_ok.mpr ⟨h.lp_le, h.lp⟩
  exact hs.burn hburn

theorem Inv.fed (hi : Inv s) (h : Fed s s') : Inv s' where
  sound := h.sound hi.sound
  locked := by
    have hlocked := h.locked
    rw [h.supply]
    have hold := hi.locked
    omega
  backed := by
    rw [h.supply]
    exact hi.backed.mono h.scad h.sol

theorem Inv.added {a : AddAmounts} {scad_amount sol_amount : Nat} (hi : Inv s)
    (h : Added s s' user a)
    (ha : addAmounts scad_amount sol_amount s.scadRes s.solRes s.lp.supply = .ok a) :
    Inv s' where
  sound := h.sound hi.sound
  locked := .inr (h.locked_le hi ha)
  backed := by
    rcases Nat.eq_zero_or_pos s.lp.supply with hzero | hl
    · exact h.backed_first ha hzero
    · exact hi.backed.of_worthLe hl (h.worth ha hl)

theorem Inv.removed {lp_amount scad_out sol_out : Nat} (hi : Inv s)
    (h : Removed s s' user lp_amount scad_out sol_out) : Inv s' where
  sound := h.sound hi.sound
  locked := by
    have hpos := h.supply_pos
    rw [h.locked]
    have hold := hi.locked
    omega
  backed := hi.backed.of_worthLe h.supply_pos h.worth

theorem Inv.traded {sol_to_scad : Bool} {amount_in amount_out : Nat} (hi : Inv s)
    (h : Traded s s' user sol_to_scad amount_in amount_out) : Inv s' where
  sound := h.lp ▸ hi.sound
  locked := h.lp ▸ hi.locked
  backed := by
    have hproduct := h.product_le
    have hold := hi.backed
    unfold Backed at *
    rw [h.lp]
    omega

/-- Every transaction keeps the invariant. -/
theorem Inv.step (hi : Inv s) (h : step rentFloor s act = some s') : Inv s' := by
  rcases exec_cases (step_ok.mp h) with hfed | ⟨_, _, _, _, a, _, hadd, ha⟩ |
    ⟨_, _, _, _, hremove⟩ | ⟨_, _, _, _, htrade⟩
  · exact hi.fed hfed
  · exact hi.added hadd ha
  · exact hi.removed hremove
  · exact hi.traded htrade

theorem inv_run {scad lamports : Balances Owner} {acts : List Act}
    (hrun : run (Swap.step rentFloor) (.initial scad lamports) acts = some s) : Inv s :=
  run_invariant (P := Inv) (fun _ _ _ hi h => hi.step h) (inv_initial scad lamports) hrun

/-! ## No division by zero -/

/-- The computation does not divide by zero. -/
def Defined {α : Type} (x : Result α) : Prop := x ≠ .error (.panic .divideByZero)

namespace Defined

variable {α β : Type}

theorem bind {x : Result α} {f : α → Result β} (hx : Defined x)
    (hf : ∀ a, x = .ok a → Defined (f a)) : Defined (x >>= f) := by
  cases x with
  | ok a => exact hf a rfl
  | error =>
    intro h
    cases h
    exact hx rfl

theorem pure (a : α) : Defined (Pure.pure a : Result α) := by
  intro h
  cases h

theorem require (c : Prop) [Decidable c] (e : SwapError) : Defined (Programs.require c e) := by
  unfold Defined Programs.require
  split <;> simp

theorem okOr (o : Option α) (e : SwapError) : Defined (Programs.okOr o e) := by
  unfold Defined Programs.okOr
  split <;> simp

theorem divide {a b : Nat} (hb : 0 < b) : Defined (Programs.divide a b) := by
  unfold Defined Programs.divide
  rw [if_neg (by omega)]
  simp

theorem divCeil {a b : Nat} (hb : 0 < b) : Defined (Programs.divCeil a b) := by
  unfold Defined Programs.divCeil
  rw [if_neg (by omega)]
  simp

theorem transfer (b : Balances Owner) (src dst : Owner) (amount : Nat) :
    Defined (Programs.transfer b src dst amount) := by
  unfold Defined Programs.transfer
  split
  · simp
  · split <;> simp

theorem mintTo (m : Mint Owner) (dst : Owner) (amount : Nat) : Defined (m.mintTo dst amount) := by
  unfold Defined Mint.mintTo
  split <;> simp

theorem burn (m : Mint Owner) (src : Owner) (amount : Nat) : Defined (m.burn src amount) := by
  unfold Defined Mint.burn
  split <;> simp

theorem getPool (s : SwapState) : Defined s.getPool := by
  unfold Defined SwapState.getPool
  split <;> simp

end Defined

theorem defined_addAmounts {scad_amount sol_amount scad_res sol_res lp_supply : Nat}
    (hb : Backed scad_res sol_res lp_supply) :
    Defined (addAmounts scad_amount sol_amount scad_res sol_res lp_supply) := by
  unfold addAmounts
  split
  · refine .bind ?_ fun split _ => .pure _
    exact .bind (.okOr _ _) fun _ _ => .bind (.okOr _ _) fun _ _ => .bind (.require _ _) fun _ _ =>
      .pure _
  · have hl : 0 < lp_supply := by omega
    have hfrom {amount res : Nat} (hres : 0 < res) : Defined (lpFrom amount lp_supply res) :=
      .bind (.okOr _ _) fun _ _ => .divide hres
    have hneed (lp res : Nat) : Defined (need lp res lp_supply) :=
      .bind (.okOr _ _) fun _ _ => .bind (.divCeil hl) fun _ _ => .okOr _ _
    refine .bind (hfrom (hb.left_pos hl)) fun _ _ => .bind (hfrom (hb.right_pos hl)) fun _ _ => ?_
    exact .bind (hneed _ _) fun _ _ => .bind (hneed _ _) fun _ _ => .bind (.okOr _ _) fun _ _ =>
      .pure _

theorem defined_payout {lp_amount res lp_supply : Nat} (hl : 0 < lp_supply) :
    Defined (payout lp_amount res lp_supply) :=
  .bind (.okOr _ _) fun _ _ => .bind (.divide hl) fun _ _ => .okOr _ _

theorem defined_cpmm_out {amount_in r_in r_out fee_bps : Nat} (hr : 0 < r_in) :
    Defined (cpmm_out amount_in r_in r_out fee_bps) := by
  refine .bind (.okOr _ _) fun _ _ => .bind (.okOr _ _) fun _ _ => .bind (.okOr _ _) fun _ _ =>
    .bind (.okOr _ _) fun denom hdenom => .bind (.divide ?_) fun _ _ => .okOr _ _
  obtain ⟨-, rfl⟩ := checkedAdd_some.mp (okOr_ok.mp hdenom)
  exact Nat.add_pos_left hr _

theorem defined_add_liquidity (hi : Inv s) (scad_amount sol_amount min_lp : Nat) :
    Defined (add_liquidity s user scad_amount sol_amount min_lp) := by
  refine .bind (.getPool s) fun _ _ => .bind (.require _ _) fun _ _ =>
    .bind (defined_addAmounts hi.backed) fun a _ => .bind (.require _ _) fun _ _ => ?_
  refine .bind (.transfer _ _ _ _) fun _ _ => .bind (.transfer _ _ _ _) fun _ _ =>
    .bind (.mintTo _ _ _) fun _ _ => .bind ?_ fun _ _ => .pure _
  unfold lockShares
  split
  · exact .mintTo _ _ _
  · exact .pure _

theorem defined_remove_liquidity (lp_amount min_scad min_sol : Nat) :
    Defined (remove_liquidity s user lp_amount min_scad min_sol) := by
  refine .bind (.getPool s) fun _ _ => .bind (.require _ _) fun _ _ =>
    .bind (.require _ _) fun _ hl => ?_
  have hl := require_ok.mp hl
  refine .bind (defined_payout hl) fun _ _ => .bind (defined_payout hl) fun _ _ =>
    .bind (.require _ _) fun _ _ => .bind (.burn _ _ _) fun _ _ => ?_
  exact .bind (.transfer _ _ _ _) fun _ _ => .bind (.transfer _ _ _ _) fun _ _ => .pure _

theorem defined_swap (sol_to_scad : Bool) (amount_in min_amount_out : Nat) :
    Defined (swap s user sol_to_scad amount_in min_amount_out) := by
  refine .bind (.getPool s) fun _ _ => .bind (.require _ _) fun _ _ =>
    .bind (.require _ _) fun _ hres => ?_
  obtain ⟨hscad, hsol⟩ := require_ok.mp hres
  refine .bind (defined_cpmm_out ?_) fun _ _ => .bind (.require _ _) fun _ _ => ?_
  · split
    · exact hsol
    · exact hscad
  · cases sol_to_scad with
    | true | false =>
      exact .bind (.transfer _ _ _ _) fun _ _ => .bind (.transfer _ _ _ _) fun _ _ => .pure _

theorem defined_exec (hi : Inv s) (act : Act) : Defined (exec rentFloor s act) := by
  cases act with
  | initPool =>
    simp only [exec, init_pool]
    split
    · simp [Defined]
    · split
      · exact .bind (.transfer _ _ _ _) fun _ _ => .pure _
      · simp [Defined]
  | addLiquidity =>
    exact .bind (defined_add_liquidity hi _ _ _) fun _ _ => .pure _
  | removeLiquidity =>
    exact .bind (defined_remove_liquidity _ _ _) fun _ _ => .pure _
  | swap =>
    exact .bind (defined_swap _ _ _) fun _ _ => .pure _
  | sendScad | sendSol | sendLp => exact .bind (.transfer _ _ _ _) fun _ _ => .pure _

/-- An add takes no more than what was offered. -/
theorem Added.offered {a : AddAmounts} {scad_amount sol_amount : Nat}
    (ha : addAmounts scad_amount sol_amount s.scadRes s.solRes s.lp.supply = .ok a) :
    a.scad_in ≤ scad_amount ∧ a.sol_in ≤ sol_amount := by
  rcases Nat.eq_zero_or_pos s.lp.supply with hzero | hl
  · rw [hzero] at ha
    obtain ⟨hscad, hsol, -, -⟩ := addAmounts_first ha
    omega
  · obtain ⟨hscad, hsol, -, hleScad, hleSol⟩ := addAmounts_later hl ha
    exact ⟨hscad ▸ deposit_le_offered hl hleScad, hsol ▸ deposit_le_offered hl hleSol⟩

/-! ## Every reachable pool -/

/-- In every state a run reaches: the LP supply is 0 or at least the locked
minimum; its square is at most the product of the reserves; no transaction
lowers the worth of a share; none divides by zero; and an add takes no more
of its user than was offered. -/
theorem liquidity_backed {scad lamports : Balances Owner} {acts : List Act}
    (hrun : run (step rentFloor) (.initial scad lamports) acts = some s) :
    (s.lp.supply = 0 ∨ MINIMUM_LIQUIDITY ≤ s.lp.supply) ∧
    s.lp.supply * s.lp.supply ≤ s.scadRes * s.solRes ∧
    (∀ act s', step rentFloor s act = some s' → 0 < s.lp.supply →
      s.scadRes * s.solRes * (s'.lp.supply * s'.lp.supply) ≤
        s'.scadRes * s'.solRes * (s.lp.supply * s.lp.supply)) ∧
    (∀ act, exec rentFloor s act ≠ .error (.panic .divideByZero)) ∧
    ∀ user scad_amount sol_amount min_lp s',
      step rentFloor s (.addLiquidity user scad_amount sol_amount min_lp) = some s' →
        s.scad.get (.user user) ≤ s'.scad.get (.user user) + scad_amount.toNat ∧
        s.lamports.get (.user user) ≤ s'.lamports.get (.user user) + sol_amount.toNat := by
  have hi := inv_run hrun
  refine ⟨hi.minimum, hi.backed, fun act s' h hl => worth_step h hl,
    fun act => defined_exec hi act, ?_⟩
  intro user scad_amount sol_amount min_lp s' h
  have hexec := step_ok.mp h
  simp only [exec, bind_ok] at hexec
  obtain ⟨⟨t, _⟩, hadd, ht⟩ := hexec
  cases ht
  obtain ⟨a, -, -, hadded, ha, -⟩ := add_liquidity_ok hadd
  obtain ⟨_, _⟩ := Added.offered ha
  rw [hadded.scad, hadded.lamports, Balances.get_move_src _ (by simp),
    Balances.get_move_src _ (by simp)]
  omega

/-- Two users with 10 SOL and as much SCAD each. -/
def wallets : Balances Owner := ⟨[(.user 1, 10000000000), (.user 2, 10000000000)]⟩

/-- A first add, a donation, a second add, a swap and a withdrawal. -/
theorem liquidity_backed_sample : ∃ s,
    run (step 890880) (.initial wallets wallets) [.initPool 1 30,
      .addLiquidity 1 1000000 4000000 0, .sendScad 2 .pool 77777, .addLiquidity 2 50000 900000 1,
      .swap 2 true 100000 0, .removeLiquidity 1 1000 0 0] = some s ∧
    MINIMUM_LIQUIDITY ≤ s.lp.supply ∧ s.lp.supply * s.lp.supply ≤ s.scadRes * s.solRes := by
  have hsome : (run (step 890880) (.initial wallets wallets) [.initPool 1 30,
      .addLiquidity 1 1000000 4000000 0, .sendScad 2 .pool 77777, .addLiquidity 2 50000 900000 1,
      .swap 2 true 100000 0, .removeLiquidity 1 1000 0 0]).any
        (fun s => decide (s.lp.supply ≠ 0)) = true := by decide +kernel
  obtain ⟨s, hrun, hs⟩ := (Option.any_eq_true _ _).mp hsome
  obtain ⟨_, hbacked, -⟩ := liquidity_backed hrun
  have hne : s.lp.supply ≠ 0 := of_decide_eq_true hs
  exact ⟨s, hrun, by omega, hbacked⟩

end Scadium.Programs.Swap
