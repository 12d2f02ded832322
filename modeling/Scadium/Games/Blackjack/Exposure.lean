/-
Scadium.Games.Blackjack.Exposure — what the exposure guard of a betting window
holds is what the bets at the table may win.

It does so in every run in which no seat with a bet is left while the guard
holds its reservation, and in which the bets on the seats fit the bankroll
when the window's guard is made. `leaveSeat` does not release, and the opening
only logs a bet that does not fit.
-/
import Scadium.Games.Blackjack.Effects

namespace Scadium.Games.Blackjack

open Scadium.Common
open Scadium.Lib Scadium.Prisma

/-! ## Potential wins -/

/-- What the bet at a seat may win. -/
def Stake.reservation (k : Stake) : Nat :=
  match k.bet with
  | some bet => potentialOf bet.betTotal
  | none => 0

/-- What the live bets may win together. -/
def Table.potential (t : Table) : Nat := weight Stake.reservation t.stakes

theorem reservation_eq (s : Seat) : s.reservation = s.stake.reservation := by
  unfold Seat.reservation Seat.staked Stake.reservation Seat.stake
  cases s.bet with
  | none => rfl
  | some bet =>
    dsimp only
    split
    · rfl
    · rename_i hzero
      have htotal : bet.betTotal = 0 := by omega
      simp [potentialOf, ExposureGuard.potential, htotal]

/-- What the window's guard holds: enough for the live bets, no more than the
cap, and nothing for a bet that is gone. -/
def ExposureAccounted (s : State) : Prop :=
  s.installed = true → s.table.phase = .betting → ∀ guard, s.table.exposure = some guard →
    s.table.potential ≤ guard.reserved ∧
      guard.reserved ≤ roundCapLamports guard.houseBalanceLamports ∧
      guard.reserved ≤ s.table.potential

/-- The steps that keep the guard and the bets together. -/
def ExposureSafe (s : State) : Event → Prop
  | .leave userId =>
      s.installed = true → s.table.phase = .betting → s.table.exposure ≠ none →
        ∀ seat, s.table.seatOf userId = some seat → seat.bet = none
  | .bankroll _ (some bankroll) => s.table.potential ≤ roundCapLamports bankroll
  | _ => True

/-! ## The guard of a table -/

/-- The guard that a table holds is its window's, and accounts for its bets. -/
structure Covered (cfg : Config) (installed : Bool) (t : Table) : Prop where
  distinct : (t.stakes.map Stake.index).Nodup
  off : cfg.chainEnabled = false → t.exposure = none
  held : installed = true → t.phase = .betting → ∀ guard, t.exposure = some guard →
    guard.reserved = t.potential

section Guard

variable {cfg : Config} {installed : Bool} {t t' : Table}
variable {userId : UserId} {bet : SeatBet} {seat found : Seat}

theorem Covered.of_same (h : Covered cfg installed t) (hsame : SameButHands t t') :
    Covered cfg installed t' := by
  refine ⟨?_, ?_, ?_⟩
  · rw [hsame.stakes]
    exact h.distinct
  · rw [hsame.exposure]
    exact h.off
  · rw [Table.potential, hsame.phase, hsame.exposure, hsame.stakes]
    exact h.held

/-- Outside the betting phase there is nothing to account for. -/
theorem Covered.closed (h : Covered cfg installed t)
    (hstakes : (t'.stakes.map Stake.index).Nodup) (hexposure : t'.exposure = t.exposure)
    (hphase : t'.phase ≠ .betting) : Covered cfg installed t' := by
  refine ⟨hstakes, ?_, fun _ hbetting => absurd hbetting hphase⟩
  rw [hexposure]
  exact h.off

/-- The turn moves on without a look at the bets. -/
theorem Covered.turned {r : Table × Bool} (h : Covered cfg installed t)
    (hturn : TurnTo t r) : Covered cfg installed r.1 := by
  rcases hturn with ⟨_, -, -, rfl⟩ | rfl
  · exact ⟨h.distinct, h.off, h.held⟩
  · refine h.closed ?_ rfl ?_
    · exact h.distinct
    · exact nofun

/-- One seat's bet changes, and with it what the bets may win. -/
theorem potential_setSeat {f : Seat → Seat} (hdistinct : (t.stakes.map Stake.index).Nodup)
    (hseat : seat ∈ t.seats) :
    (t.setSeat seat.index f).potential + seat.stake.reservation =
      t.potential + (f seat).stake.reservation := by
  have hpotential : ∀ t : Table,
      t.potential = weight (Stake.reservation ∘ Seat.stake) t.seats := fun t => weight_map _ _ _
  rw [stakes_index] at hdistinct
  rw [hpotential, hpotential]
  exact weight_updateKey Seat.index _ f hdistinct hseat

theorem distinct_setSeat {index : Nat} {f : Seat → Seat} (hf : ∀ s, (f s).index = s.index)
    (hdistinct : (t.stakes.map Stake.index).Nodup) :
    ((t.setSeat index f).stakes.map Stake.index).Nodup := by
  rw [stakes_index] at hdistinct ⊢
  have hkeys := keys_updateKey Seat.index (l := t.seats) index hf
  rw [← hkeys] at hdistinct
  exact hdistinct

/-- The swap of a hold that is there: exact if the new bet fits, and nothing
otherwise. -/
theorem swapReservation_reserved {guard : ExposureGuard} {prev new : Nat}
    (hprev : prev ≤ guard.reserved) :
    (swapReservation guard prev new).1.reserved =
      if (swapReservation guard prev new).2 then guard.reserved - prev + new
      else guard.reserved := by
  have hreleased : (guard.release prev).reserved = guard.reserved - prev := rfl
  cases hreserve : (guard.release prev).reserve new with
  | some =>
    simp only [swapReservation, hreserve, if_true]
    exact (ExposureGuard.reserve_eq_some hreserve).1
  | none =>
    simp only [swapReservation, hreserve, Bool.false_eq_true, if_false]
    rcases Nat.eq_zero_or_pos prev with rfl | hpos
    · have hnone : (guard.release 0).reserve 0 = none := dif_neg fun h => absurd h.1 (lt_irrefl 0)
      rw [hnone, Option.getD_none, hreleased]
      omega
    · have hroom : (guard.release prev).reserved + prev ≤
          roundCapLamports (guard.release prev).houseBalanceLamports := by
        have hcap : guard.reserved ≤ roundCapLamports (guard.release prev).houseBalanceLamports :=
          guard.within
        omega
      have hback : (guard.release prev).reserve prev = some
          { guard.release prev with
            reserved := (guard.release prev).reserved + prev
            within := hroom } := dif_pos ⟨hpos, hroom⟩
      rw [hback, Option.getD_some]
      show guard.reserved - prev + prev = guard.reserved
      omega

/-- The guard after a bet has been asked for. -/
theorem Covered.hold (h : Covered cfg installed t) (bet : SeatBet) (hfound : found ∈ t.seats) :
    (cfg.chainEnabled = false → (t.holdExposure cfg.chainEnabled found bet).1.exposure = none) ∧
    (installed = true → t.phase = .betting → ∀ guard,
      (t.holdExposure cfg.chainEnabled found bet).1.exposure = some guard →
        guard.reserved = if (t.holdExposure cfg.chainEnabled found bet).2
          then t.potential - found.stake.reservation + potentialOf bet.betTotal
          else t.potential) := by
  cases hchain : cfg.chainEnabled with
  | false =>
    have hnone := h.off hchain
    simp [Table.holdExposure, hnone]
  | true =>
    refine ⟨by simp, ?_⟩
    intro hinstalled hphase guard hguard
    cases hexposure : t.exposure with
    | none => simp [Table.holdExposure, hphase, hexposure] at hguard
    | some old =>
      have hheld := h.held hinstalled hphase old hexposure
      have hprev : found.reservation ≤ old.reserved := by
        rw [hheld, reservation_eq, Table.potential]
        exact le_weight (List.mem_map_of_mem hfound)
      simp only [Table.holdExposure, hphase, hexposure, beq_self_eq_true, Bool.and_self,
        Option.some.injEq] at hguard ⊢
      rw [← hguard, swapReservation_reserved hprev, hheld, reservation_eq]

theorem holdExposure_stakes :
    (t.holdExposure cfg.chainEnabled found bet).1.stakes = t.stakes := by
  obtain ⟨_, heq⟩ := holdExposure_eq cfg.chainEnabled t found bet
  rw [heq]
  rfl

theorem Covered.refused (h : Covered cfg installed t)
    (hrefused : t.Refused cfg.chainEnabled userId bet t') : Covered cfg installed t' := by
  rcases hrefused with rfl | ⟨_, hphase, hfound, hfits, rfl⟩
  · exact h
  · obtain ⟨hoff, hheld⟩ := h.hold bet (seatOf_mem hfound).1
    refine ⟨?_, hoff, ?_⟩
    · rw [holdExposure_stakes]
      exact h.distinct
    · intro hinstalled _ guard hguard
      rw [hheld hinstalled hphase guard hguard, hfits, Table.potential, Table.potential,
        holdExposure_stakes]
      rfl

/-- A bet taken in an open window swaps its seat's hold. -/
theorem Covered.placed (h : Covered cfg installed t) (hphase : t.phase = .betting)
    (haccepts : t.acceptsBet cfg.chainEnabled userId bet found) :
    Covered cfg installed (t.placed cfg.chainEnabled bet found) := by
  obtain ⟨-, hfound, hfits⟩ := haccepts
  have hmem := (seatOf_mem hfound).1
  have hsettled : t.phase ≠ .settled := by
    rw [hphase]
    exact nofun
  have hplacing : t.placingSeat found = found := if_neg hsettled
  rw [clearSettled_of_ne hsettled, hplacing] at hfits
  obtain ⟨hoff, hheld⟩ := h.hold bet hmem
  rw [Table.placed, clearSettled_of_ne hsettled, hplacing]
  obtain ⟨_, heq⟩ := holdExposure_eq cfg.chainEnabled t found bet
  rw [hfits] at hheld
  rw [heq] at hoff hheld ⊢
  refine ⟨distinct_setSeat (fun _ => rfl) h.distinct, hoff, ?_⟩
  intro hinstalled _ guard hguard
  have hreserved := hheld hinstalled hphase guard hguard
  have hpotential : (t.setSeat found.index (Seat.place bet)).potential + found.stake.reservation =
      t.potential + potentialOf bet.betTotal := potential_setSeat h.distinct hmem
  have hle : found.stake.reservation ≤ t.potential := le_weight (List.mem_map_of_mem hmem)
  rw [if_pos rfl] at hreserved
  show guard.reserved = (t.setSeat found.index (Seat.place bet)).potential
  omega

/-- A bet cleared gives its hold back. -/
theorem Covered.cleared (h : Covered cfg installed t) (hphase : t.phase = .betting)
    (hseat : t.seatOf userId = some seat) (hbet : seat.bet = some bet) :
    Covered cfg installed { t.setSeat seat.index Seat.clearBet with
      exposure := t.exposure.map (·.release (potentialOf bet.betTotal)) } := by
  have hmem := (seatOf_mem hseat).1
  refine ⟨distinct_setSeat (fun _ => rfl) h.distinct, ?_, ?_⟩
  · intro hchain
    simp [h.off hchain]
  · intro hinstalled _ guard hguard
    obtain ⟨old, hold, rfl⟩ := Option.map_eq_some_iff.mp hguard
    have hreserved := h.held hinstalled hphase old hold
    have hpotential : (t.setSeat seat.index Seat.clearBet).potential + seat.stake.reservation =
        t.potential + 0 := potential_setSeat h.distinct hmem
    have hhad : seat.stake.reservation = potentialOf bet.betTotal := by
      simp [Stake.reservation, Seat.stake, hbet]
    show old.reserved - potentialOf bet.betTotal = (t.setSeat seat.index Seat.clearBet).potential
    omega

/-- A seat that leaves without a bet held nothing. -/
theorem Covered.left (h : Covered cfg installed t) (hseat : t.seatOf userId = some seat)
    (hbet : installed = true → t.phase = .betting → t.exposure ≠ none → seat.bet = none) :
    Covered cfg installed (t.deleteSeat seat.index) := by
  have hmem := (seatOf_mem hseat).1
  have hdistinct : (t.seats.map Seat.index).Nodup := by
    rw [← stakes_index]
    exact h.distinct
  refine ⟨?_, h.off, ?_⟩
  · rw [stakes_index]
    exact hdistinct.sublist (List.filter_sublist.map _)
  · intro hinstalled hphase guard hguard
    have hreserved := h.held hinstalled hphase guard hguard
    have hnone := hbet hinstalled hphase (by simp [show t.exposure = some guard from hguard])
    have hweight := weight_deleteKey Seat.index (Stake.reservation ∘ Seat.stake) hdistinct hmem
    have hzero : (Stake.reservation ∘ Seat.stake) seat = 0 := by
      simp [Stake.reservation, Seat.stake, hnone]
    rw [hreserved, Table.potential, Table.potential, Table.stakes, Table.stakes, weight_map,
      weight_map]
    rw [hzero] at hweight
    exact hweight.symm

theorem Covered.took (h : Covered cfg installed t) (seatIndex : Nat) :
    Covered cfg installed (takeSeat t seatIndex userId).1 := by
  unfold takeSeat
  split
  · exact h
  · split
    · exact h
    · split
      · exact h
      · rename_i hfree
        split
        · exact h
        · have hnew : seatIndex ∉ t.seats.map Seat.index := by
            intro hmem
            obtain ⟨s, hs, rfl⟩ := List.mem_map.mp hmem
            simp only [Table.seatAt, Bool.not_eq_true, Option.isSome_eq_false_iff,
              Option.isNone_iff_eq_none, List.find?_eq_none] at hfree
            have hbusy := hfree s hs
            simp at hbusy
          refine ⟨?_, h.off, ?_⟩
          · have hdistinct := h.distinct
            rw [stakes_index] at hdistinct ⊢
            simpa [List.nodup_append, newSeat] using ⟨hdistinct, by simpa using hnew⟩
          · intro hinstalled hphase guard hguard
            rw [h.held hinstalled hphase guard hguard]
            simp [Table.potential, Table.stakes, Seat.stake, newSeat, Stake.reservation]

/-- The opening reservations, when they fit together. -/
theorem reserveOpening_reserved (seats : List Seat) (guard : ExposureGuard)
    (hfits : guard.reserved + weight Stake.reservation (seats.map Seat.stake) ≤
      roundCapLamports guard.houseBalanceLamports) :
    (reserveOpening guard seats).reserved =
      guard.reserved + weight Stake.reservation (seats.map Seat.stake) := by
  unfold reserveOpening
  induction seats generalizing guard with
  | nil => rfl
  | cons s seats ih =>
    rw [List.map_cons, weight_cons] at hfits ⊢
    rw [List.foldl_cons]
    cases hbet : s.bet with
    | none =>
      have hzero : s.stake.reservation = 0 := by
        simp [Stake.reservation, Seat.stake, hbet]
      rw [hzero] at hfits ⊢
      rw [Nat.zero_add] at hfits ⊢
      exact ih guard hfits
    | some bet =>
      have hhad : s.stake.reservation = potentialOf bet.betTotal := by
        simp [Stake.reservation, Seat.stake, hbet]
      rw [hhad] at hfits ⊢
      dsimp only
      rcases Nat.eq_zero_or_pos (potentialOf bet.betTotal) with hzero | hpos
      · have hnone : guard.reserve 0 = none := dif_neg fun h => absurd h.1 (lt_irrefl 0)
        rw [hzero] at hfits ⊢
        rw [hnone, Option.getD_none, ih guard (by omega)]
        omega
      · have hroom : guard.reserved + potentialOf bet.betTotal ≤
            roundCapLamports guard.houseBalanceLamports := by omega
        have hreserve : guard.reserve (potentialOf bet.betTotal) = some
            { guard with
              reserved := guard.reserved + potentialOf bet.betTotal
              within := hroom } := dif_pos ⟨hpos, hroom⟩
        rw [hreserve, Option.getD_some, ih _ (by simpa [Nat.add_assoc] using hfits)]
        exact Nat.add_assoc _ _ _

/-- The window's guard, made over the bets that are there. -/
theorem Covered.install (h : Covered cfg installed t) (installed' : Bool) (roundDbId : RoundId)
    (seed : RoundSeed) {guard : Option ExposureGuard}
    (hoff : cfg.chainEnabled = false → guard = none)
    (hnew : ∀ g, guard = some g → g.reserved = 0 ∧
      t.potential ≤ roundCapLamports g.houseBalanceLamports) :
    Covered cfg installed' (t.installRound roundDbId seed guard) := by
  refine ⟨?_, ?_, ?_⟩
  · rw [installRound_stakes]
    exact h.distinct
  · intro hchain
    simp [Table.installRound, hoff hchain]
  · intro _ _ g hg
    obtain ⟨old, rfl, rfl⟩ := Option.map_eq_some_iff.mp hg
    obtain ⟨hzero, hfits⟩ := hnew old rfl
    rw [reserveOpening_reserved, hzero, Nat.zero_add, Table.potential, installRound_stakes]
    · rfl
    · rw [hzero, Nat.zero_add]
      exact hfits

end Guard

/-! ## Steps -/

section Steps

variable {cfg : Config} {s s' : State}

/-- An opening leaves the guard of the last window, which is not the new
one's. -/
theorem Covered.opened {bet : SeatBet} {found : Seat} (h : Covered cfg s.installed s.table)
    (hphase : s.table.phase ≠ .betting) :
    Covered cfg false (s.table.placed cfg.chainEnabled bet found).openPrologue := by
  have hclosed : (cfg.chainEnabled && s.table.clearSettled.phase == .betting) = false := by
    rw [clearSettled_phase]
    simp [hphase]
  have hheld : (s.table.clearSettled.holdExposure cfg.chainEnabled (s.table.placingSeat found)
      bet).1 = s.table.clearSettled := by
    simp [Table.holdExposure, hclosed]
  have hcleared : (s.table.clearSettled.stakes.map Stake.index) =
      s.table.stakes.map Stake.index := by
    rw [stakes_index, stakes_index]
    unfold Table.clearSettled
    split
    · simp [Seat.clearBet]
    · rfl
  have hexposure : s.table.clearSettled.exposure = s.table.exposure := by
    unfold Table.clearSettled
    split
    · rfl
    · rfl
  refine ⟨?_, ?_, by simp⟩
  · rw [Table.placed, hheld]
    refine distinct_setSeat (fun _ => rfl) ?_
    rw [hcleared]
    exact h.distinct
  · intro hchain
    rw [Table.placed, hheld]
    exact hexposure.trans (h.off hchain)

/-- After an action there is no betting phase. -/
theorem acted_covered {userId : UserId} {a : Action} {seat : Seat}
    (h : Covered cfg s.installed s.table) (haccepts : s.table.acceptsAction userId a seat) :
    Covered cfg s.installed (s.table.acted cfg.stream a seat) := by
  have hphase : (s.table.acted cfg.stream a seat).phase ≠ .betting := by
    have hturns : (s.table.acted cfg.stream a seat).phase = .player_turns := by
      unfold Table.acted
      split
      · exact haccepts.1
      · exact haccepts.1
    rw [hturns]
    exact nofun
  have hexposure : (s.table.acted cfg.stream a seat).exposure = s.table.exposure := by
    unfold Table.acted
    split
    · rfl
    · rfl
  refine h.closed ?_ hexposure hphase
  unfold Table.acted
  refine distinct_setSeat ?_ ?_
  · intro s'
    cases a with
    | hit | stand | double => rfl
  · split
    · exact h.distinct
    · exact h.distinct

theorem Covered.closeBets {phase : Phase} (h : Covered cfg s.installed s.table)
    (hphase : phase ≠ .betting) : Covered cfg s.installed (s.table.closeBets phase) :=
  h.closed (h.distinct.sublist ((sitOut_index s.table.seats).map Stake.index)) rfl hphase

/-- A turn whose clock runs out, or has been too late. -/
theorem Covered.timedOut {seatIndex : Nat} (h : Covered cfg s.installed s.table.fired) :
    Covered cfg s.installed (turnTimeout s.table.fired seatIndex).1 := by
  rcases turnTimeout_cases (t := s.table.fired) seatIndex with
    heq | ⟨-, -, -, t', hsame, hturn⟩
  · rw [heq]
    exact h
  · exact (h.of_same hsame).turned hturn

theorem Covered.paused (h : Covered cfg s.installed s.table.fired) :
    Covered cfg s.installed (settlePause s.table.fired) := by
  unfold settlePause
  split
  · exact h
  · refine h.closed ?_ rfl nofun
    have hdistinct := h.distinct
    rw [stakes_index] at hdistinct ⊢
    simpa [Seat.clearBet, Function.comp_def] using hdistinct

/-- The guard of the window, over a bankroll that holds its bets. -/
theorem Covered.bankrolled {i : Nat} {bankroll : Option Nat} (installed : Bool)
    (roundDbId : RoundId) (seed : RoundSeed) (h : Covered cfg s.installed s.table)
    (hsafe : ExposureSafe s (.bankroll i bankroll)) :
    Covered cfg installed (s.table.installRound roundDbId seed
      (if cfg.chainEnabled then bankroll.map ExposureGuard.forBankroll else none)) := by
  refine h.install _ _ _ ?_ ?_
  · intro hchain
    simp [hchain]
  · intro g hg
    cases bankroll with
    | none => simp at hg
    | some =>
      split at hg
      · cases hg
        exact ⟨rfl, hsafe⟩
      · cases hg

/-- One step keeps the guard and the bets together. -/
theorem Covered.step {e : Event} (hsafe : ExposureSafe s e) (h : Covered cfg s.installed s.table)
    (hstep : step cfg s e = some s') : Covered cfg s'.installed s'.table := by
  have htimer : ∀ timer, Covered cfg s.installed { s.table with timer := timer } :=
    fun _ => ⟨h.distinct, h.off, h.held⟩
  have hdropped : Covered cfg s.installed { s.table with exposure := none } :=
    ⟨h.distinct, fun _ => rfl, nofun⟩
  cases step_effect hstep with
  | took seatIndex => exact h.took seatIndex
  | left hseat hnone => exact h.left hseat fun _ hphase _ => hnone hphase
  | leftBet _ hseat =>
    exact h.left hseat fun hinstalled hphase hguard => hsafe hinstalled hphase hguard _ hseat
  | cleared hphase hseat hbet => exact h.cleared hphase hseat hbet
  | acted _ haccepts | doubled _ haccepts =>
    rw [turned_installed, turned_table]
    exact (acted_covered h haccepts).turned (afterAction_turnTo _)
  | placeRefused _ hrefused => exact h.refused hrefused
  | opened _ _ hrests =>
    refine h.opened fun hphase => ?_
    simp [hphase] at hrests
  | placedSaving _ haccepts hphase | placed _ haccepts hphase => exact h.placed hphase haccepts
  | doubledSaving _ haccepts => exact acted_covered h haccepts
  | created => exact hdropped
  | createdOffChain => exact hdropped.install _ _ _ (fun _ => rfl) nofun
  | bankrolled => exact h.bankrolled _ _ _ hsafe
  | folded => exact h.of_same (foldEntropy_same _)
  | openTimer | savedOpening | settled => exact htimer _
  | turns =>
    rw [turned_installed, turned_table]
    have hturns : Covered cfg s.installed { s.table with phase := .player_turns } :=
      h.closed h.distinct rfl nofun
    exact hturns.turned (advanceTurn_turnTo _)
  | revealed => exact ⟨h.distinct, h.off, h.held⟩
  | savedDouble =>
    rw [turned_installed, turned_table]
    exact h.turned (afterAction_turnTo _)
  | dealNone | deal | dealUnsaved => exact h.closeBets nofun
  | timedOut =>
    rw [turned_installed, turned_table]
    exact Covered.timedOut (htimer _)
  | paused => exact Covered.paused (htimer _)
  | dealt => exact h.of_same dealCards_same
  | dealerCard => exact h.of_same (dealTo_same .dealer)
  | dealerDone =>
    refine h.closed ?_ rfl nofun
    have hstakes : (settle s.table).1.stakes = s.table.stakes := settle_stakes
    show ((settle s.table).1.stakes.map Stake.index).Nodup
    rw [hstakes]
    exact h.distinct
  | aborted => exact h.closed h.distinct rfl nofun
  | killed => exact ⟨List.nodup_nil, fun _ => rfl, nofun⟩
  | _ => exact h

end Steps

/-! ## Every run -/

/-- In every run whose steps are safe, the guard of the window accounts for
its live bets. -/
theorem exposure_accounted (cfg : Config) (isPrivate : Bool) (ownerId : Option UserId)
    (es : List Event) (t : State)
    (hsafe : Along (step cfg) ExposureSafe (.init isPrivate ownerId) es)
    (hrun : run (step cfg) (.init isPrivate ownerId) es = some t) : ExposureAccounted t := by
  have hinit : Covered cfg (State.init isPrivate ownerId).installed
      (State.init isPrivate ownerId).table := ⟨List.nodup_nil, fun _ => rfl, nofun⟩
  have hcovered : Covered cfg t.installed t.table :=
    run_induct (P := fun s => Covered cfg s.installed s.table)
      (fun _ _ _ hsafe h hstep => h.step hsafe hstep) hinit hsafe hrun
  intro hinstalled hphase guard hguard
  have hheld := hcovered.held hinstalled hphase guard hguard
  exact ⟨hheld.ge, guard.within, hheld.le⟩

/-- A window opened by one bet and joined by another, all the same card. -/
private def joined : List Event :=
  [.takeSeat 0 1, .takeSeat 1 2, .place 1 ⟨1000000, 0, 0⟩, .debit 0, .call 0,
    .created 0 9 ⟨"server", "client"⟩, .bankroll 0 (some 1000000000000), .tableUpdated 0, .saved 0,
    .place 2 ⟨2000000, 0, 0⟩, .debit 1, .call 1, .saved 1]

private def chained : Config where
  chainEnabled := true
  onchainLive := false
  stream := fun _ _ _ _ => ⟨.two, .H⟩

/-- The second bet is cleared, and its seat is left. -/
theorem exposure_accounted_sample : ∃ t,
    run (step chained) (.init false none) (joined ++ [.clear 2, .leave 2]) = some t ∧
      ExposureAccounted t := by
  have hsafe : Along (step chained) ExposureSafe (.init false none)
      (joined ++ [.clear 2, .leave 2]) := by
    refine .cons trivial rfl (.cons trivial rfl (.cons trivial rfl (.cons trivial rfl ?_)))
    refine .cons trivial rfl (.cons trivial rfl (.cons ?_ rfl (.cons trivial rfl ?_)))
    · show weight Stake.reservation [⟨0, 1, some ⟨1000000, 0, 0⟩⟩, ⟨1, 2, none⟩] ≤
        roundCapLamports 1000000000000
      decide +kernel
    refine .cons trivial rfl (.cons trivial rfl (.cons trivial rfl (.cons trivial rfl ?_)))
    refine .cons trivial rfl (.cons trivial rfl (.cons ?_ rfl trivial))
    intro _ _ _ seat hseat
    cases hseat
    rfl
  exact ⟨_, rfl, exposure_accounted chained false none _ _ hsafe rfl⟩

/-- A seat that leaves with its bet in an open window leaves its reservation
behind. -/
theorem left_bet_keeps_reservation :
    ¬ ∀ cfg isPrivate ownerId es t, run (step cfg) (.init isPrivate ownerId) es = some t →
      ExposureAccounted t := by
  intro h
  have haccounted := h chained false none (joined ++ [.leave 2]) _ rfl rfl rfl _ rfl
  exact absurd haccounted.2.2 (by decide +kernel)

end Scadium.Games.Blackjack
