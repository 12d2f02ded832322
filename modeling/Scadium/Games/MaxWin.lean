/-
Scadium.Games.MaxWin — which bets win more than the cap of the house
(`HOUSE.MAX_WIN_PER_BET_LAMPORTS`, `docs/bankroll-model.md`), path by path.

Only a live crash cash-out is paid no more than there is room for. Elsewhere the cap
holds where stake and multiplier keep it:

- `settleInstantBet` pays the multiplier of the game's table for what was drawn: of the
  target in dice and limbo, of the segment, the bin or the hits elsewhere (`PlayWithin`).
- `advanceStatefulRound` pays that of the safe picks, if the last move is safe or cashes
  out (`StatefulWithin`).
- The recovery of a crash round adds the stake that still rides to a payout that may have
  used up the cap, so what the cash-outs have won counts alone (`RecoveryWithin`).
- A blackjack seat is paid for its hand and its side bets together (`Seated.gain`).

A settlement comes with the bet, the moves and the draw behind it.
-/
import Scadium.Games.Blackjack.Table
import Scadium.Games.Crash.Flight
import Scadium.Games.Instant.Paytables
import Scadium.Games.Instant.Rules

namespace Scadium.Games.MaxWin

open Scadium.Lib Scadium.Prisma Scadium.Shared
open Crash (Round LiveBet Flight FlightEvent CashedOut Exits flightStep Launched Balanced
  portionsOf paidOf grossPayout)
open Blackjack (Seat SeatBet mainPayout)
open Fair (handValue isBust isBlackjack)
open Instant (Cents Field Json Move Multipliers Pick Play payoutLamports)

def MAX_WIN : Nat := HOUSE.MAX_WIN_PER_BET_LAMPORTS

/-! ## Settlements -/

/-- A request of a game that settles at once, and the floats of its seeds. -/
structure Instantly where
  /-- `**` -/
  pow : Nat → ℚ → ℚ
  play : Play
  amountLamports : Nat
  accepted : play.check amountLamports = .ok ()
  float : Nat → ℚ

/-- A round of mines, hilo or tower: its safe picks so far, and the move that ends it. -/
structure Stepwise where
  stakeLamports : Nat
  field : Field
  picks : List Pick
  survived : field.Survived picks
  move : Move
  won : Bool
  multiplier : ℚ
  resultJson : Json
  ends : move.apply .exact (field.after .exact picks) = .ok (.settle won multiplier resultJson)

/-- A crash bet, in a flight of its round up to some point. -/
structure Flown where
  curve : Int → Rat
  round : Round
  bet : LiveBet
  launched : Launched round
  accepted : bet ∈ round.bets
  events : List FlightEvent
  flight : Flight
  flown : run (flightStep curve) (Flight.launch round) events = some flight

/-- The bet where the flight has got to. -/
def Flown.now (f : Flown) : LiveBet := (f.flight.round.bet? f.bet.userId).getD f.bet

/-- A seat's bet, and the settle it takes part in. -/
structure Seated where
  dealerCards : List Fair.Card
  seat : Seat
  bet : SeatBet
  placed : seat.bet = some bet

inductive Settlement where
  /-- `settleInstantBet` -/
  | instant (i : Instantly)
  /-- the last step of `advanceStatefulRound` -/
  | stateful (s : Stepwise)
  | crash (f : Flown)
  /-- the recovery of a round that was left in flight -/
  | crashRecovery (f : Flown)
  | blackjack (s : Seated)

namespace Settlement

def stake : Settlement → Nat
  | instant i => i.amountLamports
  | stateful s => s.stakeLamports
  | crash f => f.bet.amountLamports
  | crashRecovery f => f.bet.amountLamports
  | blackjack s => s.bet.betTotal

/-- What is credited. -/
def credit : Settlement → Nat
  | instant i => payoutLamports i.amountLamports true (i.play.resolve i.pow i.float)
  | stateful s => payoutLamports s.stakeLamports s.won s.multiplier
  | crash f => f.now.payoutLamports
  | crashRecovery f => f.now.payoutLamports + f.now.amountLamports
  | blackjack s => (mainPayout s.dealerCards s.seat s.bet).2 + Blackjack.sidePayout s.seat s.bet

/-- `netProfit` -/
def net (s : Settlement) : Int := s.credit - s.stake

end Settlement

/-! ## Where the cap holds -/

/-- A stake that may win a multiplier: what it wins on top is less than a lamport above
the cap. -/
def Affordable (stake : Nat) (multiplier : ℚ) : Prop := stake * (multiplier - 1) < MAX_WIN + 1

/-- By the game: the draw wins nothing, or a multiplier that the stake may win. -/
def PlayWithin (i : Instantly) : Prop :=
  match i.play with
  | .dice target mode => Instant.diceWins i.float target mode = true →
      Affordable i.amountLamports (diceMultiplier target mode)
  | .limbo target => Instant.limboWins i.float (floor2 target) = true →
      Affordable i.amountLamports (floor2 target)
  | .wheel => Affordable i.amountLamports
      (wheelMultiplier (Instant.wheelSpin i.float WHEEL_SEGMENTS))
  | .plinko rows => Affordable i.amountLamports
      (((plinkoPayouts rows).getD []).getD (Instant.plinkoBin i.float rows) 0)
  | .keno picks risk => Affordable i.amountLamports
      ((kenoPaytable i.pow risk picks.length RTP).getD (Instant.kenoHits picks
        (Instant.drawSortedFrom 1 i.float KENO.CELLS KENO.DRAWS)) 0)

/-- The safe picks that are paid for, if the last move is safe or cashes out. -/
def Stepwise.paidPicks (s : Stepwise) : Option (List Pick) :=
  match s.move with
  | .pick p => if s.field.safe s.picks.length p then some (p :: s.picks) else none
  | .cashout _ => some s.picks

/-- By the safe picks: `minesMultiplier`, the steps of hilo or `towerMultiplier`. -/
def StatefulWithin (s : Stepwise) : Prop :=
  ∀ picks ∈ s.paidPicks, Affordable s.stakeLamports (s.field.multiplier .exact picks)

/-- What the cash-outs of a player come to before the cap. -/
def grossOf (exits : List CashedOut) (userId : UserId) : Nat :=
  ((exits.filter (·.userId == userId)).map fun e => (grossPayout e.portion e.multiplier).toNat).sum

/-- Nothing rides, or the parts that were cashed out have won no more than the cap. -/
def RecoveryWithin (f : Flown) : Prop :=
  portionsOf f.flight.exits f.bet.userId = f.bet.amountLamports ∨
    grossOf f.flight.exits f.bet.userId ≤ portionsOf f.flight.exits f.bet.userId + MAX_WIN

/-- What the main hand wins against the dealer's. -/
def Seated.handGain (s : Seated) : Int :=
  let main : Int := s.bet.mainLamports
  let total := (handValue s.seat.cards).total
  let dealerTotal := (handValue s.dealerCards).total
  if s.seat.status = .blackjack then if isBlackjack s.dealerCards then 0 else main * 3 / 2
  else if s.seat.status = .busted ∨ isBlackjack s.dealerCards then -main
  else if isBust s.dealerCards ∨ dealerTotal < total then main
  else if total = dealerTotal then 0
  else -main

/-- What a side bet that pays so many times its stake wins. -/
def sideGain (stake times : Nat) : Int := stake * times - stake

def Seated.gain (s : Seated) : Int :=
  s.handGain +
    sideGain s.bet.side21p3Lamports (s.seat.side21p3Outcome.elim 0 Blackjack.twentyOnePlusThree) +
    sideGain s.bet.sidePerfectPairsLamports
      (s.seat.sidePerfectPairsOutcome.elim 0 Blackjack.perfectPairs)

/-- The condition of each path. -/
def Settlement.Within : Settlement → Prop
  | instant i => PlayWithin i
  | stateful s => StatefulWithin s
  | crash _ => True
  | crashRecovery f => RecoveryWithin f
  | blackjack s => s.gain ≤ MAX_WIN

/-! ## Multipliers -/

/-- A multiplier of hundredths is paid without rounding but for the last lamport. -/
theorem payoutLamports_le_iff (stake : Nat) (won : Bool) {x : ℚ} (hx : Cents x) :
    (payoutLamports stake won x : Int) - stake ≤ MAX_WIN ↔ (won = true → Affordable stake x) := by
  obtain ⟨n, rfl⟩ := hx
  have hstake : (0 : ℚ) ≤ stake := Nat.cast_nonneg stake
  have hcap : (0 : ℚ) ≤ MAX_WIN := Nat.cast_nonneg MAX_WIN
  unfold payoutLamports Affordable
  by_cases hpays : won = true ∧ (0 : ℚ) < n / 100
  · obtain ⟨rfl, hpos⟩ := hpays
    have hn : 0 < n := by
      rw [lt_div_iff₀ (by norm_num), zero_mul] at hpos
      exact_mod_cast hpos
    obtain ⟨m, rfl⟩ := Int.eq_ofNat_of_zero_le hn.le
    have hround : ⌊((m : Int) / 100 * 100 + 1 / 2 : ℚ)⌋ = m := by
      rw [div_mul_cancel₀ _ (by norm_num), Int.floor_intCast_add]
      norm_num
    rw [if_pos ⟨rfl, hpos⟩, hround, Int.toNat_natCast]
    have hrat : ((stake : ℚ) * ((m : Int) / 100 - 1) < MAX_WIN + 1) ↔
        stake * m < 100 * (stake + MAX_WIN + 1) := by
      rw [← @Nat.cast_lt ℚ]
      push_cast
      constructor
      · intro h
        linarith
      · intro h
        linarith
    rw [hrat]
    simp only [forall_const]
    generalize stake * m = product
    omega
  · rw [if_neg hpays]
    refine iff_of_true (by omega) fun hwon => ?_
    have hle : (n / 100 : ℚ) ≤ 0 := not_lt.mp fun hpos => hpays ⟨hwon, hpos⟩
    have hless : (stake : ℚ) * (n / 100 - 1) ≤ 0 :=
      mul_nonpos_of_nonneg_of_nonpos hstake (by linarith)
    linarith

theorem affordable_zero (stake : Nat) : Affordable stake 0 := by
  have hstake : (0 : ℚ) ≤ stake := Nat.cast_nonneg stake
  have hcap : (0 : ℚ) ≤ MAX_WIN := Nat.cast_nonneg MAX_WIN
  unfold Affordable
  linarith

theorem playWithin_iff (i : Instantly) :
    PlayWithin i ↔ Affordable i.amountLamports (i.play.resolve i.pow i.float) := by
  have hif : ∀ (won : Bool) (x : ℚ), (won = true → Affordable i.amountLamports x) ↔
      Affordable i.amountLamports (if won then x else 0) := by
    intro won x
    cases won
    · simpa using affordable_zero _
    · simp
  unfold PlayWithin
  cases i.play with
  | dice => exact hif _ _
  | limbo => exact hif _ _
  | wheel => rfl
  | plinko => rfl
  | keno => rfl

theorem cents_multiplier (f : Field) (picks : List Pick) : Cents (f.multiplier .exact picks) := by
  cases picks with
  | nil =>
    cases f <;> exact Instant.cents_zero
  | cons p ps =>
    cases f with
    | mines =>
      simp only [Field.multiplier, Multipliers.exact, Shared.minesMultiplier]
      split
      · exact Instant.cents_zero
      · exact Instant.cents_floor2 _
    | hilo sequence =>
      cases p with
      | guess => exact Instant.cents_floor2 _
      | cell | column => exact ⟨100, by norm_num [Field.multiplier, Instant.cumMult]⟩
    | tower => exact Instant.cents_floor2 _

/-- A round that is won is paid for its safe picks. -/
theorem Stepwise.paid (s : Stepwise) :
    s.won = false ∧ s.paidPicks = none ∨
      s.won = true ∧ ∃ picks, s.paidPicks = some picks ∧
        s.multiplier = s.field.multiplier .exact picks := by
  obtain ⟨_, _, picks, survived, move, _, _, _, ends⟩ := s
  cases move with
  | pick p =>
    obtain ⟨-, -, ⟨hsafe, _, heq⟩ | ⟨hsafe, -, _, heq⟩ | ⟨-, -, heq⟩⟩ :=
      Instant.apply_pick survived ends
    · cases heq
      exact .inl ⟨rfl, by simp [paidPicks, hsafe]⟩
    · cases heq
      exact .inr ⟨rfl, p :: picks, by simp [paidPicks, hsafe], rfl⟩
    · cases heq
  | cashout game =>
    obtain ⟨-, -, _, heq⟩ := Instant.apply_cashout ends
    cases heq
    exact .inr ⟨rfl, picks, rfl, rfl⟩

/-! ## Crash -/

section Crash

variable {userId : UserId} {stake : Nat}

/-- The exits are paid in full as long as there is room, and nothing after that. -/
def Filled (userId : UserId) (stake : Nat) (exits : List CashedOut) : Prop :=
  paidOf exits userId ≤ grossOf exits userId ∧
    (paidOf exits userId = grossOf exits userId ∨ paidOf exits userId = stake + MAX_WIN)

theorem Filled.exits {round round' : Round} {es exits : List CashedOut}
    (hbalanced : Balanced userId stake round exits) (h : Filled userId stake exits)
    (hexits : Exits round round' es) : Filled userId stake (es ++ exits) := by
  cases hexits with
  | none => exact h
  | one u bet portion m hb hportion =>
    by_cases hu : u = userId
    · subst hu
      obtain ⟨_, hbet', hstake, -, hpaid, hroom⟩ := hbalanced
      obtain rfl := Option.some.inj (hb.symm.trans hbet')
      have hcap : Crash.MAX_NET_WIN = MAX_WIN := rfl
      unfold Filled at h ⊢
      simp only [paidOf, grossOf, List.singleton_append, List.filter_cons, beq_self_eq_true,
        if_true, List.map_cons, List.sum_cons] at h hpaid ⊢
      rw [hpaid, hcap] at hroom
      simp only [LiveBet.payoutAt, LiveBet.payoutRoom, hstake, hpaid, hcap]
      split
      · omega
      · omega
    · have hne : (u == userId) = false := beq_false_of_ne hu
      unfold Filled at h ⊢
      simpa [paidOf, grossOf, hne] using h

theorem Filled.run {curve : Int → Rat} {f f' : Flight} {es : List FlightEvent}
    (hbalanced : Balanced userId stake f.round f.exits) (h : Filled userId stake f.exits)
    (hrun : run (flightStep curve) f es = some f') : Filled userId stake f'.exits := by
  induction es generalizing f with
  | nil =>
    cases hrun
    exact h
  | cons e es ih =>
    obtain ⟨g, hstep, hrest⟩ := run_cons_eq_some.mp hrun
    refine ih (hbalanced.step hstep).1 ?_ hrest
    cases Crash.flightStep_round hstep with
    | exits _ hround hexits =>
      rw [hexits]
      exact h.exits hbalanced hround
    | busts _ hexits =>
      rw [hexits]
      exact h

/-- At every point of a flight: what has left and what rides are the stake, and the
payout keeps to the cap. -/
theorem Flown.balanced (f : Flown) :
    portionsOf f.flight.exits f.bet.userId + f.now.amountLamports = f.bet.amountLamports ∧
      f.now.payoutLamports = paidOf f.flight.exits f.bet.userId ∧
      f.now.payoutLamports ≤ f.bet.amountLamports + MAX_WIN ∧
      Filled f.bet.userId f.bet.amountLamports f.flight.exits := by
  have hlaunch : Balanced f.bet.userId f.bet.amountLamports (Flight.launch f.round).round
      (Flight.launch f.round).exits := Balanced.launch f.launched f.accepted
  obtain ⟨bet, hbet, -, hportions, hpaid, hcap⟩ := (hlaunch.run f.flown).1
  have hnow : f.now = bet := by simp [Flown.now, hbet]
  rw [hnow]
  exact ⟨hportions, hpaid, hcap, Filled.run hlaunch ⟨Nat.le_refl _, .inl rfl⟩ f.flown⟩

end Crash

/-! ## Blackjack -/

theorem Seated.net_eq (s : Seated) : (Settlement.blackjack s).net = s.gain := by
  have hhand : ((mainPayout s.dealerCards s.seat s.bet).2 : Int) - s.bet.mainLamports =
      s.handGain := by
    unfold mainPayout Seated.handGain
    by_cases hdealer : isBlackjack s.dealerCards = true
    · cases s.seat.status <;> simp [hdealer]
    · cases s.seat.status with
      | blackjack =>
        simp only [hdealer]
        simp
        omega
      | busted => simp
      | playing | standing =>
        simp only [hdealer]
        simp
        split_ifs <;> grind
  simp only [Settlement.net, Settlement.credit, Settlement.stake, Seated.gain, sideGain,
    SeatBet.betTotal, Blackjack.sidePayout, ← hhand]
  push_cast
  omega

namespace Sample

/-- Half of a bet of 100 SOL leaves at 3, which is the whole cap; then the process dies. -/
def halfOut : Flown where
  curve := Crash.Sample.curve
  round := { Crash.Sample.airborne with
    bustPoint := 10
    bets := [Crash.Sample.liveBet 8 100000000000 none] }
  bet := Crash.Sample.liveBet 8 100000000000 none
  launched := {
    running := rfl
    users := by decide
    bets := fun _ hbet => by
      cases List.mem_singleton.mp hbet
      exact ⟨rfl, by decide, rfl, rfl⟩ }
  accepted := List.mem_singleton.mpr rfl
  events := [.cashOut 8 50 3000]
  flight := _
  flown := rfl

/-- A twenty against an eighteen, on 100 SOL. -/
def twenty : Seated where
  dealerCards := [⟨.ten, .H⟩, ⟨.eight, .H⟩]
  seat := { Blackjack.newSeat 0 7 with
    bet := some ⟨100000000000, 0, 0⟩
    cards := [⟨.ten, .S⟩, ⟨.J, .D⟩]
    status := .standing }
  bet := ⟨100000000000, 0, 0⟩
  placed := rfl

/-- Limbo at 2.00 on 100 SOL; the draw 0 reaches every target. -/
def limbo : Instantly where
  pow _ _ := 0
  play := .limbo 2
  amountLamports := 100000000000
  accepted := by decide +kernel
  float _ := 0

/-- A mine field with one cell that is safe, on 100 SOL: it is found. -/
def mines : Stepwise where
  stakeLamports := 100000000000
  field := .mines (List.range 24) 24
  picks := []
  survived := trivial
  move := .pick (.cell 24)
  won := true
  multiplier := _
  resultJson := _
  ends := rfl

end Sample

end Scadium.Games.MaxWin
