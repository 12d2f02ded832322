/-
Scadium.Games.Crash.CashOut — leaving a crash round
(`games/crash/crash.engine.ts`): `capMultiplier`, `cashOut` and the body of
`runAutoCashouts`.

Multipliers are exact rationals, and `Infinity` is `none`. The hundredths a
multiplier is paid at are `Math.round(m * 100)`. What a call does to the
round in memory is here; the write of the bet's row and the message to the
gateway come after it.
-/
import Scadium.Games.Crash.Engine

namespace Scadium.Games.Crash

open Scadium.Prisma Scadium.Shared

/-- The most one bet may win, net of its stake. -/
def MAX_NET_WIN : Nat := HOUSE.MAX_WIN_PER_BET_LAMPORTS

/-! ## The net-win cap -/

/-- `bet.originalAmountLamports + MAX_NET_WIN - bet.payoutLamports` -/
def LiveBet.payoutRoom (bet : LiveBet) : Int :=
  (bet.originalAmountLamports : Int) + MAX_NET_WIN - bet.payoutLamports

/-- The multiplier at which the bet's winnings reach the cap, floored to the
hundredths the engine pays at. -/
def capMultiplier (bet : LiveBet) : Option Rat :=
  if bet.amountLamports ≤ 0 then none
  else some (((bet.payoutRoom * 100).tdiv bet.amountLamports : Int) / 100)

/-- `Math.min`, of multipliers. -/
def minMultiplier : Option Rat → Option Rat → Option Rat
  | none, b => b
  | a, none => a
  | some a, some b => some (min a b)

/-- Where the bet exits by itself: at the player's target or at the cap. -/
def LiveBet.exitTarget (bet : LiveBet) : Option Rat :=
  minMultiplier bet.autoCashout (capMultiplier bet)

/-! ## The position -/

/-- `Math.min(100, Math.max(1, Math.floor(percent)))` -/
def clampPercent (percent : Rat) : Int := min 100 (max 1 ⌊percent⌋)

/-- What part of the riding stake leaves. -/
def LiveBet.portion (bet : LiveBet) (percent : Rat) : Nat :=
  let pct := clampPercent percent
  if 100 ≤ pct then bet.amountLamports else bet.amountLamports * pct.toNat / 100

/-- What `portion` pays at `m`, before the cap. -/
def grossPayout (portion : Nat) (m : Rat) : Int := ((portion : Int) * mathRound (m * 100)).tdiv 100

/-- What it pays: no more than there is room for. -/
def LiveBet.payoutAt (bet : LiveBet) (portion : Nat) (m : Rat) : Nat :=
  let payout := grossPayout portion m
  if bet.payoutRoom < payout then bet.payoutRoom.toNat else payout.toNat

/-- The position of a bet after a cash-out of `portion` at `m`. -/
def LiveBet.cashOut (bet : LiveBet) (portion payout : Nat) (m : Rat) : LiveBet :=
  { bet with
    amountLamports := bet.amountLamports - portion
    payoutLamports := bet.payoutLamports + payout
    cashedOutAt := if bet.amountLamports - portion = 0 then some m else bet.cashedOutAt }

def Round.cashOut (round : Round) (userId : UserId) (portion payout : Nat) (m : Rat) : Round :=
  { round with bets := round.bets.map fun b =>
      if b.userId = userId then b.cashOut portion payout m else b }

/-! ## The call -/

/-- `this.current.bets.get(userId)` -/
def Round.bet? (round : Round) (userId : UserId) : Option LiveBet :=
  round.bets.find? (·.userId == userId)

/-- Fully out, or nothing left. -/
def LiveBet.isOut (bet : LiveBet) : Bool := bet.cashedOutAt.isSome || bet.amountLamports == 0

/-- The multiplier now, from the curve: its value so many ms into the run. -/
def currentMultiplier (curve : Int → Rat) (now : Time) (round : Round) : Rat :=
  if round.phase ≠ .running then 1
  else
    match round.startedAt with
    | none => 1
    | some startedAt => curve ((now : Int) - startedAt)

/-- An exit, as the gateway is told of it. -/
structure CashedOut where
  userId : UserId
  portion : Nat
  payoutLamports : Nat
  multiplier : Rat
  remainingLamports : Nat
  deriving DecidableEq

/-- `cashOut`, at the live multiplier, or for an automatic exit at the
target the player has committed to. -/
def cashOut (live : Rat) (round : Round) (userId : UserId) (percent : Rat)
    (atMultiplier : Option Rat) : Except String (Round × CashedOut) :=
  if round.phase ≠ .running then .error "Cash out only allowed while running"
  else
    match round.bet? userId with
    | none => .error "No bet to cash out"
    | some bet =>
        if bet.isOut then .error "Already cashed out"
        else if atMultiplier.isNone ∧ round.bustPoint ≤ live then
          .error "Too late — round already busting"
        else
          let m := atMultiplier.getD live
          let portion := bet.portion percent
          if portion = 0 then .error "Position too small to split"
          else
            let payout := bet.payoutAt portion m
            .ok (round.cashOut userId portion payout m,
              ⟨userId, portion, payout, m, bet.amountLamports - portion⟩)

/-- The body of the loop of `runAutoCashouts`: the exit of one bet whose
target is reached at `m`, if that is below the bust. A failed exit is only
logged. -/
def autoCashOut (m : Rat) (round : Round) (userId : UserId) : Round × List CashedOut :=
  match round.bet? userId with
  | none => (round, [])
  | some bet =>
      if bet.isOut then (round, [])
      else
        match bet.exitTarget with
        | none => (round, [])
        | some target =>
            if target ≤ m ∧ target < round.bustPoint then
              match cashOut m round userId 100 (some target) with
              | .ok (round', exit) => (round', [exit])
              | .error _ => (round, [])
            else (round, [])

/-! ## What they do -/

variable {live m : Rat} {round round' : Round} {userId : UserId} {percent : Rat}
variable {atMultiplier : Option Rat} {bet : LiveBet} {exit : CashedOut}

theorem bet?_mem (h : round.bet? userId = some bet) : bet ∈ round.bets ∧ bet.userId = userId := by
  refine ⟨List.mem_of_find?_eq_some h, ?_⟩
  have hfound := List.find?_some h
  simpa using hfound

/-- Everything a call that went through has checked and done. -/
theorem cashOut_ok (h : cashOut live round userId percent atMultiplier = .ok (round', exit)) :
    round.phase = .running ∧ ∃ bet, round.bet? userId = some bet ∧ bet.isOut = false ∧
      (atMultiplier = none → live < round.bustPoint) ∧ 0 < bet.portion percent ∧
      round' = round.cashOut userId (bet.portion percent)
        (bet.payoutAt (bet.portion percent) (atMultiplier.getD live)) (atMultiplier.getD live) ∧
      exit = ⟨userId, bet.portion percent,
        bet.payoutAt (bet.portion percent) (atMultiplier.getD live), atMultiplier.getD live,
        bet.amountLamports - bet.portion percent⟩ := by
  unfold cashOut at h
  split at h
  · cases h
  · rename_i hphase
    split at h
    · cases h
    · rename_i bet hbet
      split at h
      · cases h
      · rename_i hout
        split at h
        · cases h
        · rename_i hlate
          dsimp only at h
          split at h
          · cases h
          · rename_i hportion
            cases h
            refine ⟨by simpa using hphase, bet, hbet, by simpa using hout, ?_,
              Nat.pos_of_ne_zero hportion, rfl, rfl⟩
            intro hnone
            simpa [hnone] using hlate

/-- A full exit at a target goes through while the round runs. -/
theorem cashOut_full {target : Rat} (hphase : round.phase = .running)
    (hbet : round.bet? userId = some bet) (hout : bet.isOut = false) :
    cashOut live round userId 100 (some target) =
      .ok (round.cashOut userId bet.amountLamports (bet.payoutAt bet.amountLamports target) target,
        ⟨userId, bet.amountLamports, bet.payoutAt bet.amountLamports target, target,
          bet.amountLamports - bet.amountLamports⟩) := by
  have hpercent : clampPercent 100 = 100 := by
    norm_num [clampPercent]
  have hportion : bet.portion 100 = bet.amountLamports := by
    simp [LiveBet.portion, hpercent]
  have hpos : bet.amountLamports ≠ 0 := by
    simp only [LiveBet.isOut, Bool.or_eq_false_iff, beq_eq_false_iff_ne] at hout
    exact hout.2
  simp [cashOut, hphase, hbet, hout, hportion, hpos]

theorem portion_le (bet : LiveBet) (percent : Rat) : bet.portion percent ≤ bet.amountLamports := by
  unfold LiveBet.portion
  dsimp only
  split
  · exact le_rfl
  · rename_i hpct
    have hle : (clampPercent percent).toNat ≤ 100 := by omega
    calc bet.amountLamports * (clampPercent percent).toNat / 100
      _ ≤ bet.amountLamports * 100 / 100 := Nat.div_le_div_right (Nat.mul_le_mul_left _ hle)
      _ = bet.amountLamports := by omega

/-- The cap holds after any exit, if it held before. -/
theorem payoutAt_le (bet : LiveBet) (portion : Nat) (m : Rat)
    (h : bet.payoutLamports ≤ bet.originalAmountLamports + MAX_NET_WIN) :
    bet.payoutLamports + bet.payoutAt portion m ≤ bet.originalAmountLamports + MAX_NET_WIN := by
  have hroom : (0 : Int) ≤ bet.payoutRoom := by
    simp only [LiveBet.payoutRoom]
    omega
  have hle : (bet.payoutAt portion m : Int) ≤ bet.payoutRoom := by
    unfold LiveBet.payoutAt
    dsimp only
    split
    · omega
    · omega
  simp only [LiveBet.payoutRoom] at hle
  omega

end Scadium.Games.Crash
