/-
Scadium.Programs.Swap.SquareRoot — `integer_sqrt` on `u128`, and the shares
of the first deposit.

`integer_sqrt` of `Program` computes on the naturals. Here its operators are
those of the type: a sum that does not fit panics, and so does a division by
zero. Newton's steps go down until they meet the root, so neither happens.
-/
import Mathlib.Analysis.Real.Sqrt
import Scadium.Programs.Swap.Backing

namespace Scadium.Programs.Swap

/-! ## The loop on `u128` -/

/-- `a + b` -/
def addU128 (a b : Nat) : Result Nat :=
  if a + b ≤ U128_MAX then .ok (a + b) else .error (.panic .overflow)

/-- `(x + v / x) / 2` -/
def newton (v x : Nat) : Result Nat := do
  let quotient ← divide v x
  let sum ← addU128 x quotient
  divide sum 2

/-- The loop of `integer_sqrt`. It ends, as `x` goes down. -/
def sqrtLoop128 (v x y : Nat) : Result Nat :=
  if y < x then do
    let next ← newton v y
    sqrtLoop128 v y next
  else .ok x
termination_by x

def integer_sqrt128 (v : Nat) : Result Nat :=
  if v < 2 then .ok v
  else do
    let y ← divCeil v 2
    sqrtLoop128 v v y

/-! ## No operator panics -/

variable {v x y : Nat}

/-- Between the root and half of the number a step stays in range. -/
theorem newton_range (hv : 2 ≤ v) (hroot : Nat.sqrt v ≤ y) (hy : y ≤ (v + 1) / 2) :
    0 < y ∧ y + v / y ≤ v + 1 ∧ (v < 4 ∨ y + v / y ≤ v) := by
  have hpos : 0 < Nat.sqrt v := Nat.sqrt_pos.mpr (by omega)
  refine ⟨by omega, ?_⟩
  rcases Nat.lt_or_ge 1 y with hlarge | hsmall
  · have hhalf : v / y ≤ v / 2 := Nat.div_le_div_left hlarge (by decide)
    omega
  · obtain rfl : y = 1 := by omega
    have hlt : v < (Nat.sqrt v + 1) * (Nat.sqrt v + 1) := Nat.lt_succ_sqrt v
    have hone : Nat.sqrt v = 1 := by omega
    rw [hone] at hlt
    rw [Nat.div_one]
    omega

theorem newton_eq (hv : 2 ≤ v) (hmax : v ≤ U128_MAX) (hroot : Nat.sqrt v ≤ y)
    (hy : y ≤ (v + 1) / 2) : newton v y = .ok ((y + v / y) / 2) := by
  obtain ⟨_, -, hrange⟩ := newton_range hv hroot hy
  have hfits : y + v / y ≤ U128_MAX := by
    rcases hrange with hsmall | hle
    · have hsum := (newton_range hv hroot hy).2.1
      have hlarge : 4 ≤ U128_MAX := by decide
      omega
    · exact hle.trans hmax
  have hdiv : (divide v y : Result Nat) = .ok (v / y) := divide_ok.mpr ⟨by omega, rfl⟩
  have hadd : addU128 y (v / y) = .ok (y + v / y) := if_pos hfits
  unfold newton
  rw [hdiv]
  show (addU128 y (v / y) >>= fun sum => divide sum 2) = _
  rw [hadd]
  rfl

/-- From above the root the loop does what it does on the naturals. -/
theorem sqrtLoop128_eq (hv : 2 ≤ v) (hmax : v ≤ U128_MAX) (hroot : Nat.sqrt v ≤ y)
    (hy : y ≤ (v + 1) / 2) : sqrtLoop128 v x y = .ok (sqrtLoop v x y) := by
  induction x using Nat.strong_induction_on generalizing y with
  | _ x ih =>
    rw [sqrtLoop128, sqrtLoop]
    split
    case isTrue hlt =>
      have hsum := (newton_range hv hroot hy).2.1
      rw [newton_eq hv hmax hroot hy]
      exact ih y hlt (sqrt_le_newton (newton_range hv hroot hy).1) (by omega)
    case isFalse => rfl

theorem integer_sqrt128_eq (hmax : v ≤ U128_MAX) : integer_sqrt128 v = .ok (integer_sqrt v) := by
  unfold integer_sqrt128 integer_sqrt
  split
  case isTrue => rfl
  case isFalse h =>
    have hv : 2 ≤ v := by omega
    have hceil : v ⌈/⌉ 2 = (v + 1) / 2 := rfl
    have hhalf : (divCeil v 2 : Result Nat) = .ok (v ⌈/⌉ 2) := divCeil_ok.mpr ⟨by decide, rfl⟩
    have hroot : Nat.sqrt v ≤ (v + v / v) / 2 := sqrt_le_newton (by omega)
    rw [Nat.div_self (by omega)] at hroot
    rw [hhalf, hceil]
    exact sqrtLoop128_eq hv hmax hroot le_rfl

/-! ## The first deposit -/

theorem u64_product_le (a b : UInt64) : a.toNat * b.toNat ≤ U64_MAX * U64_MAX :=
  Nat.mul_le_mul (Nat.le_pred_of_lt a.toNat_lt) (Nat.le_pred_of_lt b.toNat_lt)

/-- The split of the root of the product, where it covers the lock. -/
theorem first_lp_split_eq (scad_amount sol_amount : UInt64) :
    first_lp_split scad_amount.toNat sol_amount.toNat =
      if MINIMUM_LIQUIDITY < Nat.sqrt (scad_amount.toNat * sol_amount.toNat) then
        .ok (MINIMUM_LIQUIDITY,
          Nat.sqrt (scad_amount.toNat * sol_amount.toNat) - MINIMUM_LIQUIDITY)
      else .error (.error .insufficientInitialLiquidity) := by
  have hle := u64_product_le scad_amount sol_amount
  generalize scad_amount.toNat = scad at hle ⊢
  generalize sol_amount.toNat = sol at hle ⊢
  have hproduct : checkedMul scad sol = some (scad * sol) :=
    checkedMul_some.mpr ⟨hle.trans (by decide), rfl⟩
  have hroot : Nat.sqrt (scad * sol) ≤ U64_MAX := by
    rw [← Nat.sqrt_eq U64_MAX]
    exact Nat.sqrt_le_sqrt hle
  have htotal : tryU64 (integer_sqrt (scad * sol)) = some (Nat.sqrt (scad * sol)) := by
    rw [integer_sqrt_eq]
    exact tryU64_some.mpr ⟨hroot, rfl⟩
  unfold first_lp_split
  rw [hproduct]
  show (okOr (tryU64 (integer_sqrt (scad * sol))) _ >>= _) = _
  rw [htotal]
  show (require _ _ >>= _) = _
  unfold require
  split
  · rfl
  · rfl

/-- For all amounts `integer_sqrt` returns the floor of the root of their
product, with no panic on its way; the shares of a first deposit, the locked
ones included, are the floor of the geometric mean of what it puts in. -/
theorem integer_sqrt_floor (scad_amount sol_amount : UInt64) :
    (∃ r, integer_sqrt128 (scad_amount.toNat * sol_amount.toNat) = .ok r ∧
      integer_sqrt (scad_amount.toNat * sol_amount.toNat) = r ∧
      r * r ≤ scad_amount.toNat * sol_amount.toNat ∧
      scad_amount.toNat * sol_amount.toNat < (r + 1) * (r + 1) ∧
      first_lp_split scad_amount.toNat sol_amount.toNat =
        if MINIMUM_LIQUIDITY < r then .ok (MINIMUM_LIQUIDITY, r - MINIMUM_LIQUIDITY)
        else .error (.error .insufficientInitialLiquidity)) ∧
    ∀ (s s' : SwapState) (user : Pubkey) (min_lp : Nat) (event : LiquidityChanged),
      s.lp.supply = 0 →
      add_liquidity s user scad_amount.toNat sol_amount.toNat min_lp = .ok (s', event) →
      event.scad = scad_amount.toNat ∧ event.sol = sol_amount.toNat ∧
        event.lp + MINIMUM_LIQUIDITY = s'.lp.supply ∧
        s'.lp.supply = ⌊√((scad_amount.toNat : ℝ) * sol_amount.toNat)⌋₊ := by
  constructor
  · have hmax : scad_amount.toNat * sol_amount.toNat ≤ U128_MAX :=
      (u64_product_le scad_amount sol_amount).trans (by decide)
    refine ⟨_, integer_sqrt128_eq hmax, rfl, ?_⟩
    rw [integer_sqrt_eq]
    exact ⟨Nat.sqrt_le _, Nat.lt_succ_sqrt _, first_lp_split_eq scad_amount sol_amount⟩
  · intro s s' user min_lp event hfirst hadd
    obtain ⟨a, -, -, hadded, hamounts, rfl⟩ := add_liquidity_ok hadd
    rw [hfirst] at hamounts
    obtain ⟨hscad, hsol, _, hsum⟩ := addAmounts_first hamounts
    have hsupply := hadded.supply
    have hmean : ⌊√((scad_amount.toNat : ℝ) * sol_amount.toNat)⌋₊ =
        Nat.sqrt (scad_amount.toNat * sol_amount.toNat) := by
      rw [← Nat.cast_mul, Real.nat_floor_real_sqrt_eq_nat_sqrt]
    rw [hmean, ← hsum]
    refine ⟨hscad, hsol, ?_, ?_⟩
    · show a.lp_out + MINIMUM_LIQUIDITY = _
      omega
    · omega

/-- An empty pool, and a user with both assets. -/
def emptyPool : SwapState where
  pool := some ⟨30, by decide⟩
  scad := ⟨[(.user 7, 5000000)]⟩
  lamports := ⟨[(.user 7, 5000000)]⟩
  lp := ⟨0, .empty⟩

theorem integer_sqrt_floor_deposit : ∃ s' event,
    add_liquidity emptyPool 7 (4000000 : UInt64).toNat (1000000 : UInt64).toNat 0 =
      .ok (s', event) ∧
    event.lp + MINIMUM_LIQUIDITY = s'.lp.supply ∧
    s'.lp.supply = ⌊√(((4000000 : UInt64).toNat : ℝ) * (1000000 : UInt64).toNat)⌋₊ := by
  have hlands : (add_liquidity emptyPool 7 (4000000 : UInt64).toNat (1000000 : UInt64).toNat
      0).toOption.isSome = true := by decide +kernel
  obtain ⟨⟨s', event⟩, hok⟩ := Option.isSome_iff_exists.mp hlands
  have hadd := toOption_eq_some.mp hok
  obtain ⟨-, -, hlp, hmean⟩ := (integer_sqrt_floor 4000000 1000000).2 emptyPool s' 7 0 event rfl hadd
  exact ⟨s', event, hadd, hlp, hmean⟩

end Scadium.Programs.Swap
