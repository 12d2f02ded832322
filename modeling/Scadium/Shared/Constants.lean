/-
Scadium.Shared.Constants — the constants of `packages/shared/src/constants.ts`
that the modelled games read, and the beacon clock they share.

`HOUSE_EDGE` and the other fractions are exact rationals. `Math.round` is
rounding half up.
-/
import Mathlib.Data.Rat.Floor
import Scadium.Prisma.Schema

namespace Scadium.Shared

open Scadium.Prisma (Time)

/-- `Math.round` -/
def mathRound (x : Rat) : Int := ⌊x + 1 / 2⌋

def LAMPORTS_PER_SOL : Nat := 1000000000

def SCAD.CASHBACK_PER_LAMPORT_LOST : Nat := 32

namespace JACKPOT

def MIN_ENTRY_LAMPORTS : Nat := 10000000
def MAX_ENTRY_LAMPORTS : Nat := 50 * LAMPORTS_PER_SOL
def MIN_PLAYERS : Nat := 2
def HOUSE_EDGE : Rat := 5 / 100

/-- `BigInt(Math.round((1 - JACKPOT.HOUSE_EDGE) * 1000))` -/
def payoutPerMille : Nat := (mathRound ((1 - HOUSE_EDGE) * 1000)).toNat

/-- The house's share, per mille. -/
def edgePerMille : Nat := 50

theorem payoutPerMille_eq : payoutPerMille = 1000 - edgePerMille := by
  have hround : mathRound ((1 - HOUSE_EDGE) * 1000) = 950 := by
    norm_num [mathRound, HOUSE_EDGE]
  rw [payoutPerMille, hround]
  rfl

end JACKPOT

namespace HOUSE

def MAX_WIN_PER_BET_LAMPORTS : Nat := 50 * LAMPORTS_PER_SOL
def MAX_ROUND_EXPOSURE_BPS : Nat := 2000

end HOUSE

namespace COINFLIP

def MIN_BET_LAMPORTS : Nat := 1000000
def MAX_BET_LAMPORTS : Nat := 100 * LAMPORTS_PER_SOL
/-- `Math.round(2 * RTP * 100) / 100` -/
def PAYOUT_MULTIPLIER : Rat := mathRound (2 * (95 / 100) * 100) / 100
def OPEN_TTL_MS : Nat := 60 * 60000
def MAX_OPEN_PER_USER : Nat := 5

end COINFLIP

namespace CRASH

def MIN_BET_LAMPORTS : Nat := 1000000
def MAX_BET_LAMPORTS : Nat := 100 * LAMPORTS_PER_SOL
def MAX_CASHOUT_MULTIPLIER : Rat := 1000000
def BET_WINDOW_MS : Nat := 15000

end CRASH

namespace BLACKJACK

def MIN_BET_LAMPORTS : Nat := 1000000
def MAX_BET_LAMPORTS : Nat := 100 * LAMPORTS_PER_SOL
def MAX_SEATS : Nat := 5
def IDLE_ROUNDS_TO_UNSEAT : Nat := 3
def MAX_PAYOUT_X : Rat := 100

end BLACKJACK

namespace LOTTERY

def DIGITS : Nat := 6
def BRACKET_COUNT : Nat := 6
def TREASURY_FEE_BPS : Nat := 2000
def REWARDS_BREAKDOWN_BPS : List Nat := [125, 375, 750, 1250, 2500, 5000]
def MAX_TICKETS_PER_PURCHASE : Nat := 100
def INJECTION_SCAD_BASE : Nat := 1000 * 1000000000

/-- The divisor of the bulk discount. -/
def DISCOUNT_DIVISOR : Nat := 2000

end LOTTERY

/-- The price of a ticket in $SCAD base units: one dollar, at ten cents. -/
def ticketPriceScadBase : Nat := 10 ^ 10

/-- `price · n · (divisor + 1 − n) / divisor`, for a batch of at most
`DISCOUNT_DIVISOR + 1` tickets. -/
def bulkDiscountTotal (priceBase n : Nat) : Nat :=
  priceBase * n * (LOTTERY.DISCOUNT_DIVISOR + 1 - n) / LOTTERY.DISCOUNT_DIVISOR

namespace RACE

def DAILY_POOL_LAMPORTS : Nat := 50 * LAMPORTS_PER_SOL
def PAYOUT_BPS : List Nat := [3000, 2000, 1400, 1000, 800, 600, 500, 300, 200, 200]

end RACE

/-- The prize of a rank of the daily race, counted from 0. -/
def racePrizeLamports (rankIndex : Nat) : Nat :=
  match RACE.PAYOUT_BPS[rankIndex]? with
  | none => 0
  | some bps => RACE.DAILY_POOL_LAMPORTS * bps / 10000

namespace FAIR_BEACON

def GENESIS_TIME_SEC : Nat := 1692803367
def PERIOD_SEC : Nat := 3

end FAIR_BEACON

open FAIR_BEACON

/-- When beacon round `round` is published. Round 1 is at genesis. -/
def beaconRoundTimeMs (round : Int) : Int :=
  (GENESIS_TIME_SEC + (round - 1) * PERIOD_SEC) * 1000

/-- The first beacon round published strictly after `ms`. -/
def beaconRoundAfter (ms : Time) : Int :=
  ⌊((ms : Rat) - GENESIS_TIME_SEC * 1000) / (PERIOD_SEC * 1000)⌋ + 2

/-- The floor is integer division: one period is 3000 ms. -/
theorem beaconRoundAfter_eq (ms : Time) :
    beaconRoundAfter ms = ((ms : Int) - GENESIS_TIME_SEC * 1000) / 3000 + 2 := by
  have hcast : ((ms : Rat) - GENESIS_TIME_SEC * 1000) / (PERIOD_SEC * 1000)
      = (((ms : Int) - GENESIS_TIME_SEC * 1000 : Int) : Rat) / ((3000 : Nat) : Rat) := by
    simp only [PERIOD_SEC]
    push_cast
    norm_num
  rw [beaconRoundAfter, hcast, Rat.floor_intCast_div_natCast]
  rfl

/-- By what is left of the period that `ms` is in. -/
theorem beaconRoundTimeMs_after (ms : Time) :
    beaconRoundTimeMs (beaconRoundAfter ms) =
      ms + (3000 - ((ms : Int) - GENESIS_TIME_SEC * 1000) % 3000) := by
  rw [beaconRoundAfter_eq, beaconRoundTimeMs]
  simp only [GENESIS_TIME_SEC, PERIOD_SEC]
  omega

end Scadium.Shared
