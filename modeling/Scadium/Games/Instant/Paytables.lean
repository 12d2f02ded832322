/-
Scadium.Games.Instant.Paytables — dice, limbo, the wheel, plinko and keno: what a
request may ask for, and the multiplier it is resolved to (`games/{dice,limbo,wheel,
plinko,keno}`, `packages/fair/src/{dice,limbo,wheel,plinko,keno}.ts`, and the tables of
`constants.ts`).

The wheel, plinko and keno pay by tables: a shape, scaled so that it returns what the
edge of the house leaves, and floored to hundredths. The arithmetic is exact here, as in
`Scadium.Games.Instant.Boards`; the power in keno's curve is a function that is given.
A request is resolved by the floats of its seeds.
-/
import Scadium.Fair.Pricing
import Scadium.Games.Instant.Layouts

namespace Scadium.Shared

def RTP : ℚ := 1 - 5 / 100

namespace DICE

def MIN_BET_LAMPORTS : Nat := 1000000
def MAX_BET_LAMPORTS : Nat := 100 * LAMPORTS_PER_SOL
def HOUSE_EDGE : ℚ := 1 / 100
def MIN_TARGET : ℚ := 2
def MAX_TARGET : ℚ := 98

end DICE

inductive DiceMode where
  | under | over
  deriving DecidableEq

def diceMultiplier (target : ℚ) (mode : DiceMode) : ℚ :=
  let chancePct := match mode with
    | .over => 100 - target
    | .under => target
  floor2 (100 * (1 - DICE.HOUSE_EDGE) / chancePct)

namespace LIMBO

def MIN_BET_LAMPORTS : Nat := 1000000
def MAX_BET_LAMPORTS : Nat := 100 * LAMPORTS_PER_SOL
def HOUSE_EDGE : ℚ := 5 / 100
def MIN_TARGET : ℚ := 101 / 100
def MAX_TARGET : ℚ := 1000000

end LIMBO

/-! ## The wheel -/

structure Bucket where
  multiplier : ℚ
  weight : Nat

namespace WHEEL

def MIN_BET_LAMPORTS : Nat := 1000000
def MAX_BET_LAMPORTS : Nat := 100 * LAMPORTS_PER_SOL

def BUCKETS : List Bucket :=
  [⟨0, 32⟩, ⟨12 / 10, 30⟩, ⟨15 / 10, 14⟩, ⟨2, 6⟩, ⟨3, 3⟩, ⟨5, 1⟩]

end WHEEL

def WHEEL_SEGMENTS : Nat := (WHEEL.BUCKETS.map (·.weight)).sum

def wheelScaledBuckets (targetRtp : ℚ) : List Bucket :=
  let rawEv := (WHEEL.BUCKETS.map fun b => (b.weight : ℚ) * b.multiplier).sum / WHEEL_SEGMENTS
  let k := targetRtp / rawEv
  WHEEL.BUCKETS.map fun b =>
    ⟨if b.multiplier = 0 then 0 else floor2 (b.multiplier * k), b.weight⟩

/-- The bucket that `index` falls into, from `acc` on. -/
def bucketMultiplier (index : Nat) : (acc : Nat) → List Bucket → ℚ
  | _, [] => 0
  | acc, b :: bs =>
      if index < acc + b.weight then b.multiplier else bucketMultiplier index (acc + b.weight) bs

def wheelMultiplier (index : Nat) : ℚ := bucketMultiplier index 0 (wheelScaledBuckets RTP)

/-! ## Plinko -/

namespace PLINKO

def MIN_BET_LAMPORTS : Nat := 1000000
def MAX_BET_LAMPORTS : Nat := 100 * LAMPORTS_PER_SOL
def ROWS : List Nat := [8, 12, 16]

/-- The shape of a row count, bin by bin. -/
def PAYOUTS : Nat → Option (List ℚ)
  | 8 => some [13, 3, 13 / 10, 7 / 10, 4 / 10, 7 / 10, 13 / 10, 3, 13]
  | 12 => some [33, 11, 4, 2, 11 / 10, 6 / 10, 3 / 10, 6 / 10, 11 / 10, 2, 4, 11, 33]
  | 16 => some [110, 41, 10, 5, 3, 15 / 10, 1, 5 / 10, 1, 5 / 10, 1, 15 / 10, 3, 5, 10, 41, 110]
  | _ => none

end PLINKO

def plinkoExpectedValue (payouts : List ℚ) : ℚ :=
  let rows := payouts.length - 1
  (payouts.zipIdx.map fun p => (rows.choose p.2 : ℚ) / 2 ^ rows * p.1).sum

def plinkoScaledPayouts (rows : Nat) (targetRtp : ℚ) : List ℚ :=
  match PLINKO.PAYOUTS rows with
  | none => []
  | some raw =>
      let k := targetRtp / plinkoExpectedValue raw
      raw.map fun m => floor2 (m * k)

/-- `PLINKO_PAYOUTS[rows]`: there is a row for each of `PLINKO.ROWS`. -/
def plinkoPayouts (rows : Nat) : Option (List ℚ) :=
  if rows ∈ PLINKO.ROWS then some (plinkoScaledPayouts rows RTP) else none

/-! ## Keno -/

namespace KENO

def MIN_BET_LAMPORTS : Nat := 1000000
def MAX_BET_LAMPORTS : Nat := 100 * LAMPORTS_PER_SOL
def MIN_PICKS : Nat := 1
def MAX_PICKS : Nat := 10

end KENO

inductive KenoRisk where
  | low | medium | high
  deriving DecidableEq

/-- The smallest paying hit count, as a share of the picks. -/
def KenoRisk.threshold : KenoRisk → ℚ
  | .low => 3 / 10
  | .medium => 45 / 100
  | .high => 6 / 10

/-- How steep the curve is. -/
def KenoRisk.power : KenoRisk → ℚ
  | .low => 12 / 10
  | .medium => 22 / 10
  | .high => 36 / 10

/-- The hypergeometric chance. -/
def kenoHitProbability (picks hits : Nat) : ℚ :=
  picks.choose hits *
    (if KENO.DRAWS < hits then 0 else (KENO.CELLS - picks).choose (KENO.DRAWS - hits)) /
      KENO.CELLS.choose KENO.DRAWS

/-- `pow` is `**`. -/
def kenoPaytable (pow : Nat → ℚ → ℚ) (risk : KenoRisk) (picks : Nat) (targetRtp : ℚ) : List ℚ :=
  let minHits := max 1 ⌈picks * risk.threshold⌉.toNat
  let shape := (List.range (picks + 1)).map fun h =>
    if h < minHits then 0 else pow (h - minHits + 1) risk.power
  let rawEv := (shape.zipIdx.map fun p => p.1 * kenoHitProbability picks p.2).sum
  let k := targetRtp / rawEv
  shape.map fun w => floor2 (w * k)

end Scadium.Shared

namespace Scadium.Games.Instant

open Scadium.Prisma Scadium.Shared

/-! ## Requests -/

/-- What `play` of each service is asked for. -/
inductive Play where
  | dice (target : ℚ) (mode : DiceMode)
  | limbo (target : ℚ)
  | wheel
  | plinko (rows : Nat)
  | keno (picks : List Nat) (risk : KenoRisk)

/-- The check of the stake. -/
def checkAmount (amountLamports low high : Nat) : Committed Unit :=
  Committed.ensure (low ≤ amountLamports ∧ amountLamports ≤ high)
    (.badRequest "bet amount out of range")

/-- The checks of `play`. -/
def Play.check (amountLamports : Nat) : Play → Committed Unit
  | dice target _ => do
      Committed.ensure (DICE.MIN_TARGET ≤ target ∧ target ≤ DICE.MAX_TARGET)
        (.badRequest "target must be in [2, 98]")
      checkAmount amountLamports DICE.MIN_BET_LAMPORTS DICE.MAX_BET_LAMPORTS
  | limbo target => do
      Committed.ensure (LIMBO.MIN_TARGET ≤ target ∧ target ≤ LIMBO.MAX_TARGET)
        (.badRequest "target must be in [1.01, 1000000]")
      checkAmount amountLamports LIMBO.MIN_BET_LAMPORTS LIMBO.MAX_BET_LAMPORTS
  | wheel => checkAmount amountLamports WHEEL.MIN_BET_LAMPORTS WHEEL.MAX_BET_LAMPORTS
  | plinko rows => do
      Committed.ensure ((plinkoPayouts rows).isSome) (.badRequest "rows must be one of 8, 12, 16")
      checkAmount amountLamports PLINKO.MIN_BET_LAMPORTS PLINKO.MAX_BET_LAMPORTS
  | keno picks _ => do
      Committed.ensure (KENO.MIN_PICKS ≤ picks.length ∧ picks.length ≤ KENO.MAX_PICKS ∧
          picks.Nodup ∧ ∀ p ∈ picks, 1 ≤ p ∧ p ≤ KENO.CELLS)
        (.badRequest "pick 1-10 distinct numbers in 1..40")
      checkAmount amountLamports KENO.MIN_BET_LAMPORTS KENO.MAX_BET_LAMPORTS

/-! ## Draws -/

section Draws

variable (float : Nat → ℚ)

def diceRoll : ℚ := ⌊float 0 * 10000⌋ / 100

def diceWins (target : ℚ) : DiceMode → Bool
  | .over => decide (target ≤ diceRoll float)
  | .under => decide (diceRoll float < target)

/-- `limboResult(…) >= targetMult` -/
def limboWins (targetMult : ℚ) : Bool :=
  decide (targetMult ≤ Fair.limboMultiplier (float 0) LIMBO.HOUSE_EDGE)

def wheelSpin (segmentCount : Nat) : Nat :=
  let idx := ⌊float 0 * segmentCount⌋.toNat
  if segmentCount ≤ idx then segmentCount - 1 else idx

/-- `bin` of `plinkoDrop`: how often the ball goes right. -/
def plinkoBin (rows : Nat) : Nat :=
  ((List.range rows).map fun i => if 1 / 2 ≤ float i then 1 else 0).sum

/-- How many of the picks are drawn. -/
def kenoHits (picks drawn : List Nat) : Nat := (picks.filter (· ∈ drawn)).length

end Draws

/-- The multiplier `resolve` returns. -/
def Play.resolve (pow : Nat → ℚ → ℚ) (float : Nat → ℚ) : Play → ℚ
  | dice target mode => if diceWins float target mode then diceMultiplier target mode else 0
  | limbo target => if limboWins float (floor2 target) then floor2 target else 0
  | wheel => wheelMultiplier (wheelSpin float WHEEL_SEGMENTS)
  | plinko rows => ((plinkoPayouts rows).getD []).getD (plinkoBin float rows) 0
  | keno picks risk =>
      (kenoPaytable pow risk picks.length RTP).getD
        (kenoHits picks (drawSortedFrom 1 float KENO.CELLS KENO.DRAWS)) 0

/-! ## Hundredths -/

/-- A multiplier of whole hundredths. -/
def Cents (x : ℚ) : Prop := ∃ n : Int, x = n / 100

theorem cents_zero : Cents 0 := ⟨0, by simp⟩

theorem cents_floor2 (x : ℚ) : Cents (floor2 x) := ⟨⌊x * 100⌋, rfl⟩

theorem cents_getD {l : List ℚ} (h : ∀ x ∈ l, Cents x) (i : Nat) : Cents (l.getD i 0) := by
  rw [List.getD]
  cases hi : l[i]? with
  | none => exact cents_zero
  | some x => exact h x (List.mem_of_getElem? hi)

theorem cents_bucket (index : Nat) {bs : List Bucket} (h : ∀ b ∈ bs, Cents b.multiplier) :
    ∀ acc, Cents (bucketMultiplier index acc bs) := by
  induction bs with
  | nil => exact fun _ => cents_zero
  | cons b bs ih =>
    intro acc
    rw [bucketMultiplier]
    split
    · exact h b (List.mem_cons_self ..)
    · exact ih (fun c hc => h c (List.mem_cons_of_mem _ hc)) _

/-- A request is resolved to hundredths. -/
theorem cents_resolve (pow : Nat → ℚ → ℚ) (float : Nat → ℚ) (play : Play) :
    Cents (play.resolve pow float) := by
  cases play with
  | dice | limbo =>
    rw [Play.resolve]
    split
    · exact cents_floor2 _
    · exact cents_zero
  | wheel =>
    refine cents_bucket _ (fun b hb => ?_) 0
    obtain ⟨_, -, rfl⟩ := List.mem_map.mp hb
    dsimp only
    split
    · exact cents_zero
    · exact cents_floor2 _
  | plinko rows =>
    refine cents_getD (fun x hx => ?_) _
    unfold plinkoPayouts plinkoScaledPayouts at hx
    split at hx
    · split at hx
      · cases hx
      · obtain ⟨m, -, rfl⟩ := List.mem_map.mp hx
        exact cents_floor2 _
    · cases hx
  | keno =>
    refine cents_getD (fun x hx => ?_) _
    obtain ⟨w, -, rfl⟩ := List.mem_map.mp hx
    exact cents_floor2 _

/-- What the wheel pays, by its segments. -/
example : (WHEEL_SEGMENTS, [31, 61, 75, 81, 84, 85].map wheelMultiplier) =
    (86, [0, 118 / 100, 147 / 100, 196 / 100, 295 / 100, 492 / 100]) := by
  decide +kernel

end Scadium.Games.Instant
