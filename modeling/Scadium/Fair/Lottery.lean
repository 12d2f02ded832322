/-
Scadium.Fair.Lottery — matching a ticket with the winning number
(`packages/fair/src/lottery.ts`), and the split of the pool between the
brackets (`lotteryPoolSplit`, `lottery.settlement.ts`).

The split is modelled twice. On the natural numbers it is what the settlement
uses. `BigInt.lotteryPoolSplit` and `BigInt.splitBracketPrizes` compute on the
integers, as the source does, so that a term could come out negative: for a
pool of at least zero none does, the result is that of the functions on the
natural numbers, and nothing of the pool is lost. Last comes which bracket a
ticket is in, by the digits that agree.
-/
import Mathlib.Algebra.BigOperators.Ring.Finset
import Mathlib.Algebra.BigOperators.Ring.List
import Mathlib.Algebra.Order.BigOperators.Group.List
import Mathlib.Data.List.GetD
import Mathlib.Tactic.Ring
import Mathlib.Tactic.Linarith
import Scadium.Shared.Constants

namespace Scadium.Fair

open Scadium.Shared

def LOTTERY_DIGITS : Nat := 6

/-- Leading digits of a ticket that match, left to right: the loop from
digit `i`, with `fuel` digits to go. -/
def leadingMatchFrom (ticketDigits drawDigits : List Nat) : (fuel i : Nat) → Nat
  | 0, _ => 0
  | fuel + 1, i =>
      if ticketDigits[i]? = drawDigits[i]? then
        leadingMatchFrom ticketDigits drawDigits fuel (i + 1) + 1
      else 0

def lotteryLeadingMatch (ticketDigits drawDigits : List Nat) : Nat :=
  leadingMatchFrom ticketDigits drawDigits LOTTERY_DIGITS 0

/-- Highest bracket for a leading-match count. -/
def lotteryBracket (matchLen : Nat) : Option Nat :=
  if matchLen < 1 then none else some (min matchLen LOTTERY_DIGITS - 1)

/-- The burn, and the brackets' slices of the rest. -/
def lotteryPoolSplit (totalPool : Nat) : List Nat × Nat :=
  let burn := totalPool * LOTTERY.TREASURY_FEE_BPS / 10000
  let toWinners := totalPool - burn
  (LOTTERY.REWARDS_BREAKDOWN_BPS.map fun bps => toWinners * bps / 10000, burn)

structure BracketSettlement where
  bracketSlices : List Nat
  perWinner : List Nat
  bracketRollover : List Nat
  burn : Nat
  nextRollover : Nat
  deriving DecidableEq

/-- Each slice is split equally among the winners of its bracket; what is
not won and the floor dust roll over. -/
def splitBracketPrizes (totalPool : Nat) (bracketWinnerCounts : List Nat) : BracketSettlement :=
  let slices := (lotteryPoolSplit totalPool).1
  let burn := (lotteryPoolSplit totalPool).2
  let slice := fun b => slices.getD b 0
  let count := fun b => bracketWinnerCounts.getD b 0
  let perWinner := (List.range LOTTERY.BRACKET_COUNT).map fun b =>
    if 0 < count b then slice b / count b else 0
  let rollover := (List.range LOTTERY.BRACKET_COUNT).map fun b =>
    if 0 < count b then slice b - slice b / count b * count b else slice b
  { bracketSlices := slices
    perWinner := perWinner
    bracketRollover := rollover
    burn := burn
    nextRollover := rollover.sum + (totalPool - burn - slices.sum) }

/-! ## The split on the integers -/

namespace BigInt

/-- The burn, and the brackets' slices of the rest. -/
def lotteryPoolSplit (totalPool : Int) : List Int × Int :=
  let burn := (totalPool * LOTTERY.TREASURY_FEE_BPS).tdiv 10000
  let toWinners := totalPool - burn
  (LOTTERY.REWARDS_BREAKDOWN_BPS.map fun bps : Nat => (toWinners * bps).tdiv 10000, burn)

structure BracketSettlement where
  bracketSlices : List Int
  perWinner : List Int
  bracketRollover : List Int
  burn : Int
  nextRollover : Int
  deriving DecidableEq

def splitBracketPrizes (totalPool : Int) (bracketWinnerCounts : List Nat) : BracketSettlement :=
  let slices := (lotteryPoolSplit totalPool).1
  let burn := (lotteryPoolSplit totalPool).2
  let slice := fun b => slices.getD b 0
  let count := fun b => bracketWinnerCounts.getD b 0
  let perWinner := (List.range LOTTERY.BRACKET_COUNT).map fun b =>
    if 0 < count b then (slice b).tdiv (count b) else 0
  let rollover := (List.range LOTTERY.BRACKET_COUNT).map fun b =>
    if 0 < count b then slice b - (slice b).tdiv (count b) * count b else slice b
  let winnerShare := totalPool - burn
  let allocated := slices.sum
  { bracketSlices := slices
    perWinner := perWinner
    bracketRollover := rollover
    burn := burn
    nextRollover := rollover.sum + (winnerShare - allocated) }

/-- The settlement as one on the integers. -/
def ofNat (s : Fair.BracketSettlement) : BracketSettlement where
  bracketSlices := s.bracketSlices.map (↑)
  perWinner := s.perWinner.map (↑)
  bracketRollover := s.bracketRollover.map (↑)
  burn := s.burn
  nextRollover := s.nextRollover

end BigInt

/-! ## Slices of a whole -/

/-- Floored slices of `x` come to at most `x` when their rates come to at
most one. -/
theorem sum_floor_slices_le {d : Nat} (hd : 0 < d) (x : Nat) (rates : List Nat)
    (h : rates.sum ≤ d) : (rates.map fun r => x * r / d).sum ≤ x := by
  have hscaled : d * (rates.map fun r => x * r / d).sum ≤ x * rates.sum := by
    rw [← List.sum_map_mul_left, ← List.map_id rates, ← List.sum_map_mul_left, List.map_id]
    exact List.sum_le_sum fun r _ => Nat.mul_div_le _ _
  have hwhole : d * (rates.map fun r => x * r / d).sum ≤ d * x := by
    calc d * (rates.map fun r => x * r / d).sum ≤ x * rates.sum := hscaled
      _ ≤ x * d := Nat.mul_le_mul_left _ h
      _ = d * x := Nat.mul_comm _ _
  exact Nat.le_of_mul_le_mul_left hwhole hd

theorem burn_le (pool : Nat) : (lotteryPoolSplit pool).2 ≤ pool := by
  simp only [lotteryPoolSplit, LOTTERY.TREASURY_FEE_BPS]
  omega

theorem slices_le (pool : Nat) :
    (lotteryPoolSplit pool).1.sum ≤ pool - (lotteryPoolSplit pool).2 :=
  sum_floor_slices_le (by decide) _ _ (by decide)

theorem length_slices (pool : Nat) :
    (lotteryPoolSplit pool).1.length = LOTTERY.BRACKET_COUNT := by
  simp [lotteryPoolSplit, LOTTERY.REWARDS_BREAKDOWN_BPS, LOTTERY.BRACKET_COUNT]

/-! ## The integers and the natural numbers -/

theorem lotteryPoolSplit_natCast (pool : Nat) :
    BigInt.lotteryPoolSplit pool =
      ((lotteryPoolSplit pool).1.map (↑), ((lotteryPoolSplit pool).2 : Int)) := by
  have hburn := burn_le pool
  simp only [lotteryPoolSplit] at hburn
  simp only [BigInt.lotteryPoolSplit, lotteryPoolSplit, List.map_map, Prod.mk.injEq]
  have hfee : ((pool : Int) * (LOTTERY.TREASURY_FEE_BPS : Int)).tdiv 10000 =
      ((pool * LOTTERY.TREASURY_FEE_BPS / 10000 : Nat) : Int) := by
    rw [Int.tdiv_eq_ediv_of_nonneg (by positivity)]
    push_cast
    rfl
  refine ⟨List.map_congr_left fun bps _ => ?_, hfee⟩
  rw [hfee, ← Int.natCast_sub hburn, Int.tdiv_eq_ediv_of_nonneg (by positivity)]
  simp [Function.comp]

theorem getD_map_natCast (xs : List Nat) (b : Nat) :
    (xs.map ((↑) : Nat → Int)).getD b 0 = ((xs.getD b 0 : Nat) : Int) := by
  simp [List.getD_eq_getElem?_getD, List.getElem?_map]
  cases xs[b]? <;> simp

/-- For a natural pool the integers change nothing. -/
theorem splitBracketPrizes_natCast (pool : Nat) (counts : List Nat) :
    BigInt.splitBracketPrizes pool counts = BigInt.ofNat (splitBracketPrizes pool counts) := by
  have hburn := burn_le pool
  have hslices := slices_le pool
  have hshare : ∀ slice count : Nat, (if 0 < count then (slice : Int).tdiv count else 0) =
      ((if 0 < count then slice / count else 0 : Nat) : Int) := by
    intro slice count
    rw [Int.tdiv_eq_ediv_of_nonneg (by positivity)]
    split <;> simp
  have hdust : ∀ slice count : Nat,
      (if 0 < count then (slice : Int) - (slice : Int).tdiv count * count else slice) =
        ((if 0 < count then slice - slice / count * count else slice : Nat) : Int) := by
    intro slice count
    rw [Int.tdiv_eq_ediv_of_nonneg (by positivity)]
    split
    · rw [Int.natCast_sub (Nat.div_mul_le_self _ _)]
      push_cast
      rfl
    · rfl
  simp only [BigInt.splitBracketPrizes, splitBracketPrizes, BigInt.ofNat, List.map_map,
    lotteryPoolSplit_natCast, getD_map_natCast, hshare, hdust, Function.comp_def, Nat.cast_add,
    Nat.cast_list_sum, Int.natCast_sub hslices, Int.natCast_sub hburn]

/-! ## Nothing is lost -/

/-- A bracket's slice is what its winners get and what rolls over. -/
theorem share_add_dust (slice count : Nat) :
    (if 0 < count then slice / count else 0) * count +
      (if 0 < count then slice - slice / count * count else slice) = slice := by
  have hle := Nat.div_mul_le_self slice count
  split
  · omega
  · omega

/-- Over the brackets: what is paid out and the rollovers are the slices. -/
theorem sum_slices (slices counts : List Nat) :
    ((List.range slices.length).map fun b =>
        (if 0 < counts.getD b 0 then slices.getD b 0 / counts.getD b 0 else 0) *
          counts.getD b 0).sum +
      ((List.range slices.length).map fun b =>
        if 0 < counts.getD b 0 then
          slices.getD b 0 - slices.getD b 0 / counts.getD b 0 * counts.getD b 0
        else slices.getD b 0).sum = slices.sum := by
  rw [← List.sum_map_add]
  simp only [share_add_dust]
  congr 1
  refine List.ext_getElem (by simp) ?_
  intro i h _
  simp only [List.length_map, List.length_range] at h
  simp [List.getD_eq_getElem?_getD, h]

/-- What the brackets pay in all. -/
def BracketSettlement.paid (s : BracketSettlement) (counts : List Nat) : Nat :=
  ((List.range LOTTERY.BRACKET_COUNT).map fun b => s.perWinner.getD b 0 * counts.getD b 0).sum

theorem perWinner_getD (pool : Nat) (counts : List Nat) {b : Nat}
    (h : b < LOTTERY.BRACKET_COUNT) : (splitBracketPrizes pool counts).perWinner.getD b 0 =
      if 0 < counts.getD b 0 then (lotteryPoolSplit pool).1.getD b 0 / counts.getD b 0 else 0 := by
  simp [splitBracketPrizes, List.getD_eq_getElem?_getD, h]

/-- The burn, the prizes and the next rollover make up the pool. -/
theorem split_exact (pool : Nat) (counts : List Nat) :
    (splitBracketPrizes pool counts).burn + (splitBracketPrizes pool counts).paid counts +
      (splitBracketPrizes pool counts).nextRollover = pool := by
  have hburn := burn_le pool
  have hslices := slices_le pool
  have hsum := sum_slices (lotteryPoolSplit pool).1 counts
  rw [length_slices] at hsum
  have hpaid : (splitBracketPrizes pool counts).paid counts =
      ((List.range LOTTERY.BRACKET_COUNT).map fun b =>
        (if 0 < counts.getD b 0 then (lotteryPoolSplit pool).1.getD b 0 / counts.getD b 0 else 0) *
          counts.getD b 0).sum := by
    refine congrArg List.sum (List.map_congr_left fun b hb => ?_)
    rw [perWinner_getD _ _ (List.mem_range.mp hb)]
  rw [hpaid]
  simp only [splitBracketPrizes]
  omega

/-! ## Which bracket a ticket is in -/

/-- The first `n` digits are the same, left to right. -/
def Agree (ticketDigits drawDigits : List Nat) (n : Nat) : Prop :=
  ∀ i < n, ticketDigits[i]? = drawDigits[i]?

theorem le_leadingMatchFrom (ticketDigits drawDigits : List Nat) (n : Nat) {fuel i : Nat} :
    n ≤ leadingMatchFrom ticketDigits drawDigits fuel i ↔
      n ≤ fuel ∧ ∀ j < n, ticketDigits[i + j]? = drawDigits[i + j]? := by
  induction fuel generalizing i n with
  | zero =>
    simp only [leadingMatchFrom, Nat.le_zero]
    constructor
    · rintro rfl
      simp
    · exact fun h => h.1
  | succ fuel ih =>
    cases n with
    | zero => simp
    | succ =>
      simp only [leadingMatchFrom]
      split
      · rename_i hi
        rw [Nat.succ_le_succ_iff, ih, Nat.succ_le_succ_iff]
        refine and_congr_right fun _ => ⟨fun h j hj => ?_, fun h j hj => ?_⟩
        · cases j with
          | zero => exact hi
          | succ j => simpa [Nat.add_right_comm, Nat.add_assoc] using h j (by omega)
        · simpa [Nat.add_right_comm, Nat.add_assoc] using h (j + 1) (by omega)
      · rename_i hi
        simp only [Nat.le_zero, Nat.add_one_ne_zero, false_iff, not_and]
        exact fun _ h => hi (h 0 (by omega))

/-- A ticket matches `n` digits exactly when its first `n` agree. -/
theorem le_lotteryLeadingMatch {ticketDigits drawDigits : List Nat} {n : Nat}
    (h : n ≤ LOTTERY_DIGITS) :
    n ≤ lotteryLeadingMatch ticketDigits drawDigits ↔ Agree ticketDigits drawDigits n := by
  simp [lotteryLeadingMatch, le_leadingMatchFrom, h, Agree]

theorem lotteryLeadingMatch_le (ticketDigits drawDigits : List Nat) :
    lotteryLeadingMatch ticketDigits drawDigits ≤ LOTTERY_DIGITS :=
  ((le_leadingMatchFrom ticketDigits drawDigits _).mp (le_refl _)).1

/-- No bracket: not even the first digit agrees. -/
theorem lotteryBracket_none {ticketDigits drawDigits : List Nat} :
    lotteryBracket (lotteryLeadingMatch ticketDigits drawDigits) = none ↔
      ¬ Agree ticketDigits drawDigits 1 := by
  rw [← le_lotteryLeadingMatch (by decide)]
  simp [lotteryBracket]

/-- The highest bracket: `b + 1` digits agree, and not one more. -/
theorem lotteryBracket_some {ticketDigits drawDigits : List Nat} {b : Nat} :
    lotteryBracket (lotteryLeadingMatch ticketDigits drawDigits) = some b ↔
      b < LOTTERY.BRACKET_COUNT ∧ Agree ticketDigits drawDigits (b + 1) ∧
        (b + 1 < LOTTERY.BRACKET_COUNT → ¬ Agree ticketDigits drawDigits (b + 2)) := by
  have hle := lotteryLeadingMatch_le ticketDigits drawDigits
  simp only [LOTTERY_DIGITS, LOTTERY.BRACKET_COUNT] at hle ⊢
  constructor
  · intro h
    simp only [lotteryBracket, LOTTERY_DIGITS] at h
    split at h
    · cases h
    · have hb : lotteryLeadingMatch ticketDigits drawDigits = b + 1 := by
        have heq := Option.some.inj h
        omega
      refine ⟨by omega, (le_lotteryLeadingMatch (by simp only [LOTTERY_DIGITS]; omega)).mp
        (by omega), fun hlt hagree => ?_⟩
      have hmore := (le_lotteryLeadingMatch (by simp only [LOTTERY_DIGITS]; omega)).mpr hagree
      omega
  · rintro ⟨_, hagree, hmax⟩
    have hge := (le_lotteryLeadingMatch (by simp only [LOTTERY_DIGITS]; omega)).mpr hagree
    have hexact : lotteryLeadingMatch ticketDigits drawDigits = b + 1 := by
      by_cases hlast : b + 1 < 6
      · have hnot : ¬ b + 2 ≤ lotteryLeadingMatch ticketDigits drawDigits := fun h =>
          hmax hlast ((le_lotteryLeadingMatch (by simp only [LOTTERY_DIGITS]; omega)).mp h)
        omega
      · omega
    simp only [hexact, lotteryBracket, LOTTERY_DIGITS]
    rw [if_neg (by omega)]
    congr 1
    omega

end Scadium.Fair
