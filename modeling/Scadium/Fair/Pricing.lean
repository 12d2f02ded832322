/-
Scadium.Fair.Pricing — what a target multiplier returns in crash and in limbo
(`packages/fair/src/{crash,limbo}.ts`), counted over all draws.

Both games turn a uniform draw into a multiplier by an inverse law, floored to
hundredths, and pay a target the draw's multiplier reaches. The return of a target is
the number of draws that reach it, times the target. In crash every twentieth draw
reaches nothing, and no target a bet can be placed at returns more than 95% of the
draws. In limbo the draw 0 reaches every target, so every target returns a little more
than the edge leaves.
-/
import Mathlib.Algebra.BigOperators.Intervals
import Mathlib.Data.Rat.Floor
import Mathlib.Tactic.FieldSimp
import Mathlib.Tactic.Linarith
import Scadium.Fair.Hash
import Scadium.Shared.Constants

namespace Scadium.Fair

open Scadium.Prisma (Bytes32)

/-! ## Multipliers -/

/-- `parseInt(hash.slice(0, 13), 16)` -/
def first52 (digest : Bytes32) : Nat := digest.toNat / 16 ^ 51

/-- The bust point of a draw of 52 bits. -/
def bustPoint (h : Nat) : ℚ :=
  if h % 20 = 0 then 1
  else ⌊((100 * 2 ^ 52 - h) / (2 ^ 52 - h) : ℚ)⌋ / 100

def crashPoint (sha : Sha) (serverSeed clientSeed : String) (nonce : Nat) : ℚ :=
  bustPoint (first52 (hmacSha256 sha serverSeed (buildMessage clientSeed nonce)))

def crashPointFromSlot (sha : Sha) (serverSeed clientSeed : String) (slotHash : Bytes32)
    (nonce : Nat) : ℚ :=
  bustPoint (first52 (lotteryFinalEntropy sha serverSeed (padClientSeed32 clientSeed) slotHash
    nonce))

/-- The multiplier of a float. -/
def limboMultiplier (u edge : ℚ) : ℚ :=
  let raw := if u ≤ 0 then 1000000 else (1 - edge) / u
  max 1 (⌊raw * 100⌋ / 100)

def limboResult (sha : Sha) (serverSeed clientSeed : String) (nonce : Nat) (edge : ℚ) : ℚ :=
  limboMultiplier ((floatsFromHmac sha serverSeed clientSeed nonce 1).getD 0 0) edge

/-- A multiplier is floored to hundredths, which a target is in. -/
theorem hundredths_le {m : Nat} {x : ℚ} : (m : ℚ) / 100 ≤ (⌊x⌋ : ℚ) / 100 ↔ (m : ℚ) ≤ x := by
  rw [div_le_div_iff_of_pos_right (by norm_num)]
  exact_mod_cast Int.le_floor

/-! ## Draws -/

/-- The draws counted from the other end. -/
theorem card_filter_reflect (n : Nat) (p : Nat → Prop) [DecidablePred p] :
    ((Finset.range n).filter fun h => p (n - 1 - h)).card = ((Finset.range n).filter p).card := by
  rw [Finset.card_filter, Finset.card_filter]
  exact Finset.sum_range_reflect (fun j => if p j then 1 else 0) n

/-- Of the numbers from 1 to `n`, one in twenty is 16 above a multiple of twenty. -/
theorem card_filter_residue (n : Nat) :
    ((Finset.range n).filter fun j => (j + 1) % 20 ≠ 16).card = n - (n + 4) / 20 := by
  induction n with
  | zero => rfl
  | succ n ih =>
    rw [Finset.range_add_one, Finset.filter_insert]
    split
    · rw [Finset.card_insert_of_notMem (by simp), ih]
      omega
    · rw [ih]
      omega

/-! ## Crash -/

/-- How many draws bust at a target or later. -/
def crashSurvivors (target : ℚ) : Nat :=
  ((Finset.range (2 ^ 52)).filter fun h => target ≤ bustPoint h).card

section

variable {m h h' : Nat}

/-- A draw reaches a target when it is close enough to the top. -/
theorem target_le_bustPoint (hm : 101 ≤ m) (hh : h < 2 ^ 52) :
    (m : ℚ) / 100 ≤ bustPoint h ↔
      (2 ^ 52 - 1 - h + 1) % 20 ≠ 16 ∧ 2 ^ 52 - 1 - h < 99 * 2 ^ 52 / (m - 1) := by
  obtain ⟨k, rfl⟩ : ∃ k, m = k + 101 := ⟨m - 101, by omega⟩
  obtain ⟨j, hj⟩ : ∃ j, j + h + 1 = 2 ^ 52 := ⟨2 ^ 52 - 1 - h, by omega⟩
  have htop : 2 ^ 52 - 1 - h = j := by omega
  have hsub : k + 101 - 1 = k + 100 := by omega
  have hdiv : j < 99 * 2 ^ 52 / (k + 100) ↔ (j + 1) * (k + 100) ≤ 99 * 2 ^ 52 :=
    Nat.le_div_iff_mul_le (by omega)
  have hbust : (j + 1) % 20 = 16 ↔ h % 20 = 0 := by omega
  rw [htop, hsub, hdiv, ne_eq, hbust]
  unfold bustPoint
  split
  · rename_i hinstant
    have hlow : ¬ ((k + 101 : Nat) : ℚ) / 100 ≤ 1 := by
      rw [not_le, lt_div_iff₀ (by norm_num)]
      exact_mod_cast (by omega : 1 * 100 < k + 101)
    exact ⟨fun h => absurd h hlow, fun h => absurd hinstant h.1⟩
  · rename_i hflight
    have hcast : (j : ℚ) + h + 1 = 2 ^ 52 := by exact_mod_cast hj
    have hnum : (100 * 2 ^ 52 - h : ℚ) = 99 * 2 ^ 52 + (j + 1) := by linarith
    have hden : (2 ^ 52 - h : ℚ) = j + 1 := by linarith
    have hpos : (0 : ℚ) < j + 1 := by positivity
    rw [hundredths_le, hnum, hden, le_div_iff₀ hpos]
    have hnat : ((j : ℚ) + 1) * (k + 100) ≤ 99 * 2 ^ 52 ↔ (j + 1) * (k + 100) ≤ 99 * 2 ^ 52 := by
      exact_mod_cast Iff.rfl
    rw [← hnat]
    push_cast
    constructor
    · intro hle
      exact ⟨hflight, by linarith⟩
    · rintro ⟨-, _⟩
      linarith

/-- The draws that reach a target: the top ones, less one in twenty. -/
theorem crashSurvivors_eq (hm : 101 ≤ m) :
    crashSurvivors (m / 100) =
      99 * 2 ^ 52 / (m - 1) - (99 * 2 ^ 52 / (m - 1) + 4) / 20 := by
  have htop : 99 * 2 ^ 52 / (m - 1) ≤ 2 ^ 52 := by
    calc 99 * 2 ^ 52 / (m - 1) ≤ 99 * 2 ^ 52 / 100 := Nat.div_le_div_left (by omega) (by omega)
      _ ≤ 2 ^ 52 := by omega
  generalize hL : 99 * 2 ^ 52 / (m - 1) = top at htop ⊢
  have hreach : (Finset.range (2 ^ 52)).filter (fun h => (m : ℚ) / 100 ≤ bustPoint h) =
      (Finset.range (2 ^ 52)).filter fun h =>
        (2 ^ 52 - 1 - h + 1) % 20 ≠ 16 ∧ 2 ^ 52 - 1 - h < top := by
    refine Finset.filter_congr fun h hh => ?_
    rw [target_le_bustPoint hm (Finset.mem_range.mp hh), hL]
  have hlow : (Finset.range (2 ^ 52)).filter (fun j => (j + 1) % 20 ≠ 16 ∧ j < top) =
      (Finset.range top).filter fun j => (j + 1) % 20 ≠ 16 := by
    ext j
    simp only [Finset.mem_filter, Finset.mem_range]
    omega
  unfold crashSurvivors
  rw [hreach, card_filter_reflect (2 ^ 52) fun j => (j + 1) % 20 ≠ 16 ∧ j < top, hlow,
    card_filter_residue]

/-- The largest target, in hundredths, before the floor of the count shows. -/
def MAX_PRICED : Nat := 95 * 2 ^ 52 / 72

theorem price_le (hm : 101 ≤ m) (hmax : m ≤ MAX_PRICED) :
    m * (99 * 2 ^ 52 / (m - 1) - (99 * 2 ^ 52 / (m - 1) + 4) / 20) ≤ 95 * 2 ^ 52 := by
  obtain ⟨n, rfl⟩ : ∃ n, m = n + 1 := ⟨m - 1, by omega⟩
  rw [Nat.add_sub_cancel]
  have hn : 72 * (n + 1) ≤ 95 * 2 ^ 52 := by
    unfold MAX_PRICED at hmax
    omega
  have hlow : 99 * 2 ^ 52 / n * n ≤ 99 * 2 ^ 52 := Nat.div_mul_le_self _ _
  have hhigh : 99 * 2 ^ 52 < (99 * 2 ^ 52 / n + 1) * n :=
    Nat.lt_mul_of_div_lt (Nat.lt_succ_self _) (by omega)
  generalize 99 * 2 ^ 52 / n = top at hlow hhigh ⊢
  have hat : ∀ c, top ≤ c → 99 * 2 ^ 52 < (c + 1) * n := fun c hc =>
    hhigh.trans_le (Nat.mul_le_mul_right n (by omega))
  have htop : 75 ≤ top := by
    by_contra hsmall
    have := hat 74 (by omega)
    omega
  rcases (by omega : top = 75 ∨ 76 ≤ top ∧ top ≤ 94 ∨ 95 ≤ top) with rfl | ⟨hge, hle⟩ | hge
  · omega
  · -- four draws of the top go out, and the target is above 2⁵² hundredths
    have hcount : top - (top + 4) / 20 = top - 4 := by omega
    have hfar := hat 94 hle
    obtain ⟨c, rfl⟩ : ∃ c, top = c + 4 := ⟨top - 4, by omega⟩
    rw [hcount, Nat.add_sub_cancel]
    nlinarith
  · have hcount : 20 * (top - (top + 4) / 20) ≤ 19 * top + 15 := by omega
    generalize top - (top + 4) / 20 = kept at hcount ⊢
    obtain ⟨a, rfl⟩ : ∃ a, top = a + 95 := ⟨top - 95, by omega⟩
    obtain ⟨b, rfl⟩ : ∃ b, n = b + 100 := ⟨n - 100, by omega⟩
    have hprice : (b + 101) * (20 * kept) ≤ (b + 101) * (19 * (a + 95) + 15) :=
      Nat.mul_le_mul_left _ hcount
    nlinarith [Nat.zero_le (a * b)]

theorem bustPoint_mono (hle : h ≤ h') (hlt : h' < 2 ^ 52) (hh : h % 20 ≠ 0) (hh' : h' % 20 ≠ 0) :
    bustPoint h ≤ bustPoint h' := by
  have hcast : (h : ℚ) ≤ h' := by exact_mod_cast hle
  have hpos' : (0 : ℚ) < 2 ^ 52 - h' := by
    have : (h' : ℚ) < 2 ^ 52 := by exact_mod_cast hlt
    linarith
  have hpos : (0 : ℚ) < 2 ^ 52 - h := by linarith
  unfold bustPoint
  rw [if_neg hh, if_neg hh', div_le_div_iff_of_pos_right (by norm_num)]
  refine Int.cast_le.mpr (Int.floor_le_floor ?_)
  rw [div_le_div_iff₀ hpos hpos']
  nlinarith

end

/-- No target up to `MAX_PRICED` returns more than 95% of the draws, and a higher draw
does not bust earlier, the instant busts apart. -/
theorem crash_pricing :
    (∀ m : Nat, 101 ≤ m → m ≤ MAX_PRICED →
      (m / 100 : ℚ) * crashSurvivors (m / 100) ≤ 95 / 100 * 2 ^ 52) ∧
    ∀ h h' : Nat, h ≤ h' → h' < 2 ^ 52 → h % 20 ≠ 0 → h' % 20 ≠ 0 → bustPoint h ≤ bustPoint h' := by
  refine ⟨fun m hm hmax => ?_, fun h h' => bustPoint_mono⟩
  have hprice := price_le hm hmax
  rw [crashSurvivors_eq hm]
  generalize 99 * 2 ^ 52 / (m - 1) - (99 * 2 ^ 52 / (m - 1) + 4) / 20 = survivors at hprice
  have hcast : (m : ℚ) * survivors ≤ 95 * 2 ^ 52 := by exact_mod_cast hprice
  linarith

theorem crash_pricing_lowest :
    (101 / 100 : ℚ) * crashSurvivors (101 / 100) ≤ 95 / 100 * 2 ^ 52 ∧
      bustPoint 1 ≤ bustPoint 2 := by
  refine ⟨?_, crash_pricing.2 1 2 (by decide) (by decide) (by decide) (by decide)⟩
  exact_mod_cast crash_pricing.1 101 (by decide) (by decide)

/-- One hundredth further, 72 draws are left where 71.99… would be the price. -/
theorem crash_pricing_too_far :
    ¬ ((MAX_PRICED + 1 : Nat) / 100 : ℚ) * crashSurvivors ((MAX_PRICED + 1 : Nat) / 100) ≤
      95 / 100 * 2 ^ 52 := by
  rw [crashSurvivors_eq (by decide)]
  norm_num [MAX_PRICED]

/-- Every target the engine takes is priced. -/
example : Shared.CRASH.MAX_CASHOUT_MULTIPLIER * 100 ≤ MAX_PRICED := by
  norm_num [Shared.CRASH.MAX_CASHOUT_MULTIPLIER, MAX_PRICED]

/-! ## Limbo -/

/-- How many draws of 32 bits reach a target. -/
def limboSurvivors (target edge : ℚ) : Nat :=
  ((Finset.range (2 ^ 32)).filter fun k : Nat =>
    target ≤ limboMultiplier (k / 2 ^ 32) edge).card

section

variable {m : Nat} {edge : ℚ}

theorem target_le_limboMultiplier (hm : 101 ≤ m) (hmax : m ≤ 100000000) (hedge : edge < 1)
    (k : Nat) :
    (m : ℚ) / 100 ≤ limboMultiplier (k / 2 ^ 32) edge ↔ k ≤ (1 - edge) * 2 ^ 32 / (m / 100) := by
  have hm' : (101 : ℚ) ≤ m := by exact_mod_cast hm
  have hmax' : (m : ℚ) ≤ 100000000 := by exact_mod_cast hmax
  have hone : ¬ (m : ℚ) / 100 ≤ 1 := by
    rw [not_le, lt_div_iff₀ (by norm_num)]
    linarith
  have htarget : (0 : ℚ) < m / 100 := by positivity
  unfold limboMultiplier
  simp only [le_max_iff, hone, false_or]
  rw [hundredths_le, le_div_iff₀ htarget]
  rcases Nat.eq_zero_or_pos k with rfl | hk
  · have hkept : 0 ≤ (1 - edge) * 2 ^ 32 := by
      have : 0 < 1 - edge := by linarith
      positivity
    simp only [Nat.cast_zero, zero_div, le_refl, if_true, zero_mul, hkept, iff_true]
    linarith
  · have hk' : (0 : ℚ) < k := by exact_mod_cast hk
    have hu : ¬ (k : ℚ) / 2 ^ 32 ≤ 0 := by
      rw [not_le]
      positivity
    rw [if_neg hu, ← div_le_iff₀ (by norm_num), le_div_iff₀ (by positivity)]
    constructor
    · intro hle
      linarith
    · intro hle
      linarith

/-- The draws that reach a target: those up to the price, and the draw 0. -/
theorem limboSurvivors_eq (hm : 101 ≤ m) (hmax : m ≤ 100000000) (hnonneg : 0 ≤ edge)
    (hedge : edge < 1) :
    limboSurvivors (m / 100) edge = ⌊(1 - edge) * 2 ^ 32 / (m / 100)⌋₊ + 1 := by
  have hm' : (101 : ℚ) ≤ m := by exact_mod_cast hm
  have hprice : (1 - edge) * 2 ^ 32 / (m / 100) < 2 ^ 32 := by
    rw [div_lt_iff₀ (by positivity)]
    nlinarith
  have hpos : 0 ≤ (1 - edge) * 2 ^ 32 / (m / 100) := by
    have : 0 < 1 - edge := by linarith
    positivity
  have hfits : ⌊(1 - edge) * 2 ^ 32 / (m / 100)⌋₊ < 2 ^ 32 := by
    rw [Nat.floor_lt hpos]
    exact_mod_cast hprice
  have hreach : (Finset.range (2 ^ 32)).filter (fun k : Nat =>
      (m / 100 : ℚ) ≤ limboMultiplier (k / 2 ^ 32) edge) =
      Finset.range (⌊(1 - edge) * 2 ^ 32 / (m / 100)⌋₊ + 1) := by
    ext k
    rw [Finset.mem_filter, Finset.mem_range, Finset.mem_range,
      target_le_limboMultiplier hm hmax hedge, ← Nat.le_floor_iff hpos]
    omega
  unfold limboSurvivors
  rw [hreach, Finset.card_range]

end

/-- No target of limbo is priced: each returns more than the edge leaves, by up to the
target itself. -/
theorem limbo_overpays {m : Nat} {edge : ℚ} (hm : 101 ≤ m) (hmax : m ≤ 100000000)
    (hnonneg : 0 ≤ edge) (hedge : edge < 1) :
    ¬ (m / 100 : ℚ) * limboSurvivors (m / 100) edge ≤ (1 - edge) * 2 ^ 32 ∧
      (m / 100 : ℚ) * limboSurvivors (m / 100) edge ≤ (1 - edge) * 2 ^ 32 + m / 100 := by
  have htarget : (0 : ℚ) < m / 100 := by
    have : (101 : ℚ) ≤ m := by exact_mod_cast hm
    positivity
  have hpos : 0 ≤ (1 - edge) * 2 ^ 32 / (m / 100) := by
    have : 0 < 1 - edge := by linarith
    positivity
  have hlow := Nat.lt_floor_add_one ((1 - edge) * 2 ^ 32 / (m / 100 : ℚ))
  have hhigh := Nat.floor_le hpos
  rw [div_lt_iff₀ htarget] at hlow
  rw [le_div_iff₀ htarget] at hhigh
  rw [limboSurvivors_eq hm hmax hnonneg hedge]
  push_cast
  constructor
  · linarith
  · linarith

theorem limbo_overpays_highest :
    ¬ (100000000 / 100 : ℚ) * limboSurvivors (100000000 / 100) (1 / 20) ≤
        (1 - 1 / 20) * 2 ^ 32 ∧
      (100000000 / 100 : ℚ) * limboSurvivors (100000000 / 100) (1 / 20) ≤
        (1 - 1 / 20) * 2 ^ 32 + 100000000 / 100 := by
  exact_mod_cast @limbo_overpays 100000000 (1 / 20) (by decide) (by decide) (by norm_num)
    (by norm_num)

/-- At the highest target and the edge of the platform, 4081 draws win where 4080.2…
would be the price. -/
theorem limbo_highest_survivors :
    limboSurvivors 1000000 (1 / 20) = 4081 ∧
      ¬ (1000000 : ℚ) * limboSurvivors 1000000 (1 / 20) ≤ (1 - 1 / 20) * 2 ^ 32 := by
  have hcount : limboSurvivors 1000000 (1 / 20) = 4081 := by
    have hfloor : ⌊(1 - 1 / 20) * 2 ^ 32 / ((100000000 : Nat) / 100 : ℚ)⌋₊ = 4080 := by
      rw [Nat.floor_eq_iff (by norm_num)]
      norm_num
    have hsurvivors := @limboSurvivors_eq 100000000 (1 / 20) (by decide) (by decide)
      (by norm_num) (by norm_num)
    rw [hfloor] at hsurvivors
    norm_num at hsurvivors
    exact hsurvivors
  refine ⟨hcount, ?_⟩
  rw [hcount]
  norm_num

end Scadium.Fair
