/-
Scadium.Common.ExposureGuard — the per-round house exposure guard
(`common/exposure-guard.ts`). What is reserved never exceeds the share of
the bankroll that a round may promise: the guard carries the fact.
-/
import Mathlib.Data.Rat.Floor
import Scadium.Shared.Constants

namespace Scadium.Common

open Scadium.Shared

/-- What a round may promise at most, of a bankroll of `houseBalance`. -/
def roundCapLamports (houseBalance : Nat) : Nat :=
  houseBalance * HOUSE.MAX_ROUND_EXPOSURE_BPS / 10000

structure ExposureGuard where
  houseBalanceLamports : Nat
  reserved : Nat
  within : reserved ≤ roundCapLamports houseBalanceLamports
  deriving DecidableEq

namespace ExposureGuard

/-- `new ExposureGuard(bankroll)` -/
def forBankroll (bankroll : Nat) : ExposureGuard := ⟨bankroll, 0, Nat.zero_le _⟩

/-- The potential payout of one bet, capped by the maximum win. -/
def potential (stakeLamports : Nat) (maxMultiplier : Rat) : Nat :=
  min (stakeLamports * ⌈maxMultiplier⌉.toNat) HOUSE.MAX_WIN_PER_BET_LAMPORTS

/-- `none` means that the bet must be rejected. -/
def reserve (guard : ExposureGuard) (potentialLamports : Nat) : Option ExposureGuard :=
  if h : 0 < potentialLamports ∧
      guard.reserved + potentialLamports ≤ roundCapLamports guard.houseBalanceLamports then
    some { guard with
      reserved := guard.reserved + potentialLamports
      within := h.2 }
  else none

/-- Free what was reserved, down to nothing. -/
def release (guard : ExposureGuard) (potentialLamports : Nat) : ExposureGuard :=
  { guard with
    reserved := guard.reserved - potentialLamports
    within := (Nat.sub_le _ _).trans guard.within }

/-- A reservation that was made, exactly. -/
theorem reserve_eq_some {guard guard' : ExposureGuard} {potentialLamports : Nat}
    (h : guard.reserve potentialLamports = some guard') :
    guard'.reserved = guard.reserved + potentialLamports ∧
      guard'.houseBalanceLamports = guard.houseBalanceLamports := by
  unfold reserve at h
  split at h
  · cases h
    exact ⟨rfl, rfl⟩
  · cases h

end ExposureGuard

end Scadium.Common
