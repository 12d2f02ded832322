/-
Scadium.Games.Blackjack.TableTheorems — what the functions of the table do:
one lemma for each call that says when it goes through and what it leaves
behind, and the frames of everything else.

`Table.stakes` is who sits where with which bet. Only four functions touch
it: taking a seat, leaving one, placing a bet and clearing one, besides the
double and the two ways the bets of a settled round are dropped.
-/
import Scadium.Games.Blackjack.Table
import Scadium.Lib.Weights

namespace Scadium.Games.Blackjack

open Scadium.Common (ExposureGuard)
open Scadium.Fair Scadium.Lib Scadium.Prisma Scadium.Shared

/-! ## Seats -/

section Seats

variable {t : Table} {seat : Seat} {index : Nat} {userId : UserId}

theorem seatOf_mem (h : t.seatOf userId = some seat) : seat ∈ t.seats ∧ seat.userId = userId := by
  refine ⟨List.mem_of_find?_eq_some h, ?_⟩
  have hfound := List.find?_some h
  simpa using hfound

theorem seatAt_mem (h : t.seatAt index = some seat) : seat ∈ t.seats ∧ seat.index = index := by
  refine ⟨List.mem_of_find?_eq_some h, ?_⟩
  have hfound := List.find?_some h
  simpa using hfound

end Seats

/-! ## What the calls check -/

section Checks

variable {chainEnabled : Bool} {stream : CardStream} {t t' : Table}
variable {userId : UserId} {bet : SeatBet} {e : String}

/-- The seat as `placeBet` finds it, once the last round's stakes are gone. -/
def Table.placingSeat (t : Table) (found : Seat) : Seat :=
  if t.phase = .settled then found.clearBet else found

/-- The checks of `placeBet`. -/
def Table.acceptsBet (chainEnabled : Bool) (t : Table) (userId : UserId) (bet : SeatBet)
    (found : Seat) : Prop :=
  t.phase.takesBets = true ∧ t.seatOf userId = some found ∧
    (t.clearSettled.holdExposure chainEnabled (t.placingSeat found) bet).2 = true

/-- The table `placeBet` leaves. -/
def Table.placed (chainEnabled : Bool) (t : Table) (bet : SeatBet) (found : Seat) : Table :=
  (t.clearSettled.holdExposure chainEnabled (t.placingSeat found) bet).1.setSeat found.index
    (Seat.place bet)

theorem holdExposure_eq (chainEnabled : Bool) (t : Table) (seat : Seat) (bet : SeatBet) : ∃ exposure,
    (t.holdExposure chainEnabled seat bet).1 = { t with exposure := exposure } := by
  unfold Table.holdExposure
  split
  · exact ⟨_, rfl⟩
  · exact ⟨t.exposure, rfl⟩

/-- Only an open window has a cap. -/
theorem holdExposure_fits {seat : Seat} (h : t.phase ≠ .betting) :
    (t.holdExposure chainEnabled seat bet).2 = true := by
  have hclosed : (chainEnabled && t.phase == .betting) = false := by
    simp [h]
  simp [Table.holdExposure, hclosed]

theorem clearSettled_of_ne (h : t.phase ≠ .settled) : t.clearSettled = t := by
  simp [Table.clearSettled, h]

theorem clearSettled_phase : t.clearSettled.phase = t.phase := by
  unfold Table.clearSettled
  split
  · rfl
  · rfl

theorem placingSeat_index (found : Seat) : (t.placingSeat found).index = found.index := by
  unfold Table.placingSeat
  split
  · rfl
  · rfl

theorem placeBet_accepts {found : Seat} (h : t.acceptsBet chainEnabled userId bet found) :
    placeBet chainEnabled t userId bet = (t.placed chainEnabled bet found,
      .ok ⟨(t.placingSeat found).staked, t.phase ≠ .betting⟩) := by
  obtain ⟨htakes, hfound, hfits⟩ := h
  have hindex := placingSeat_index (t := t) found
  unfold Table.placingSeat at hfits hindex
  simp [placeBet, htakes, hfound, hfits, hindex, Table.placed, Table.placingSeat]

/-- The table a refused bet leaves: only the guard of an open window may have
been asked. -/
def Table.Refused (chainEnabled : Bool) (t : Table) (userId : UserId) (bet : SeatBet)
    (t' : Table) : Prop :=
  t' = t ∨ ∃ found, t.phase = .betting ∧ t.seatOf userId = some found ∧
    (t.holdExposure chainEnabled found bet).2 = false ∧
      t' = (t.holdExposure chainEnabled found bet).1

/-- A bet is refused or taken. -/
theorem placeBet_cases (chainEnabled : Bool) (t : Table) (userId : UserId) (bet : SeatBet) :
    (∃ e t', placeBet chainEnabled t userId bet = (t', .error e) ∧
      t.Refused chainEnabled userId bet t' ∧
      ∀ found, ¬ t.acceptsBet chainEnabled userId bet found) ∨
    ∃ found, t.acceptsBet chainEnabled userId bet found ∧
      placeBet chainEnabled t userId bet = (t.placed chainEnabled bet found,
        .ok ⟨(t.placingSeat found).staked, t.phase ≠ .betting⟩) := by
  by_cases haccepts : ∃ found, t.acceptsBet chainEnabled userId bet found
  · obtain ⟨found, haccepts⟩ := haccepts
    exact .inr ⟨found, haccepts, placeBet_accepts haccepts⟩
  · have hnone : ∀ found, ¬ t.acceptsBet chainEnabled userId bet found := not_exists.mp haccepts
    left
    by_cases htakes : t.phase.takesBets = true
    · cases hfound : t.seatOf userId with
      | none => exact ⟨"Take a seat first", t, by simp [placeBet, htakes, hfound], .inl rfl, hnone⟩
      | some found =>
        have hfits : (t.clearSettled.holdExposure chainEnabled (t.placingSeat found) bet).2 =
            false := by
          cases hheld : (t.clearSettled.holdExposure chainEnabled (t.placingSeat found) bet).2 with
          | false => rfl
          | true => exact absurd ⟨htakes, hfound, hheld⟩ (hnone found)
        have hbetting : t.phase = .betting := by
          by_contra hphase
          have hopen : t.clearSettled.phase ≠ .betting := by
            rw [clearSettled_phase]
            exact hphase
          rw [holdExposure_fits hopen] at hfits
          cases hfits
        have hsettled : t.phase ≠ .settled := by
          rw [hbetting]
          exact nofun
        have hplacing : t.placingSeat found = found := if_neg hsettled
        rw [clearSettled_of_ne hsettled, hplacing] at hfits
        refine ⟨"Round exposure limit reached — try a smaller bet or the next round",
          (t.holdExposure chainEnabled found bet).1, ?_,
          .inr ⟨found, hbetting, hfound, hfits, rfl⟩, hnone⟩
        simp [placeBet, htakes, hfound, clearSettled_of_ne hsettled, hsettled, hfits]
    · exact ⟨"Bets are closed — wait for the next round", t, by simp [placeBet, htakes],
        .inl rfl, hnone⟩

/-- `clearBet` takes a bet off a seat of an open window. -/
theorem clearBet_cases (t : Table) (userId : UserId) :
    (∃ e, clearBet t userId = (t, .error e) ∧
      ∀ seat bet, t.phase = .betting → t.seatOf userId = some seat → seat.bet ≠ some bet) ∨
    ∃ seat bet, t.phase = .betting ∧ t.seatOf userId = some seat ∧ seat.bet = some bet ∧
      clearBet t userId =
        ({ t.setSeat seat.index Seat.clearBet with
            exposure := t.exposure.map (·.release (potentialOf bet.betTotal)) },
          .ok bet.betTotal) := by
  unfold clearBet
  split
  · rename_i hphase
    exact .inl ⟨_, rfl, fun _ _ h => absurd h hphase⟩
  · rename_i hphase
    split
    · rename_i hseat
      exact .inl ⟨_, rfl, by simp [hseat]⟩
    · rename_i seat hseat
      split
      · rename_i hbet
        refine .inl ⟨_, rfl, ?_⟩
        intro seat' bet _ hseat' hbet'
        rw [hseat] at hseat'
        cases hseat'
        rw [hbet] at hbet'
        cases hbet'
      · rename_i bet hbet
        exact .inr ⟨seat, bet, not_not.mp hphase, hseat, hbet, rfl⟩

/-- `leaveSeat` takes a seat off the table; its bet comes back in an open
window only. -/
theorem leaveSeat_cases (t : Table) (userId : UserId) :
    (∃ e, leaveSeat t userId = (t, .error e) ∧
      ∀ seat bet, t.phase = .betting → t.seatOf userId = some seat → seat.bet ≠ some bet) ∨
    (∃ seat, t.seatOf userId = some seat ∧ (t.phase = .betting → seat.bet = none) ∧
      (seat.bet ≠ none → t.phase = .idle ∨ t.phase = .settled) ∧
      leaveSeat t userId = (t.deleteSeat seat.index, .ok ⟨0, false⟩)) ∨
    ∃ seat bet, t.phase = .betting ∧ t.seatOf userId = some seat ∧ seat.bet = some bet ∧
      leaveSeat t userId = (t.deleteSeat seat.index, .ok ⟨bet.betTotal, true⟩) := by
  unfold leaveSeat
  split
  · rename_i hseat
    exact .inl ⟨_, rfl, by simp [hseat]⟩
  · rename_i seat hseat
    split
    · rename_i hbet
      exact .inr (.inl ⟨seat, hseat, fun _ => hbet, fun h => absurd hbet h, rfl⟩)
    · rename_i bet hbet
      split
      · rename_i hphase
        exact .inr (.inr ⟨seat, bet, hphase, hseat, hbet, rfl⟩)
      · rename_i hphase
        split
        · exact .inl ⟨_, rfl, fun _ _ h => absurd h hphase⟩
        · rename_i hover
          refine .inr (.inl ⟨seat, hseat, fun h => absurd h hphase, fun _ => ?_, rfl⟩)
          by_cases hidle : t.phase = .idle
          · exact .inl hidle
          · exact .inr (not_not.mp fun hsettled => hover ⟨hidle, hsettled⟩)

/-- The checks of `action`. -/
def Table.acceptsAction (t : Table) (userId : UserId) (a : Action) (seat : Seat) : Prop :=
  t.phase = .player_turns ∧ t.activeSeat.bind t.seatAt = some seat ∧ seat.userId = userId ∧
    seat.status = .playing ∧ (a = .double → seat.cards.length = 2)

/-- The table `action` leaves before its await. -/
def Table.acted (stream : CardStream) (t : Table) (a : Action) (seat : Seat) : Table :=
  (if a = .stand then t else t.logDraw (.seat seat.index) (t.nextCard stream)).setSeat seat.index
    fun s => s.act a (t.nextCard stream)

theorem action_cases (stream : CardStream) (t : Table) (userId : UserId) (a : Action) :
    (∃ e, action stream t userId a = (t, .error e) ∧
      ∀ seat, ¬ t.acceptsAction userId a seat) ∨
    ∃ seat, t.acceptsAction userId a seat ∧
      action stream t userId a = (t.acted stream a seat, .ok seat.index) := by
  have hrefused : ∀ {seat}, t.activeSeat.bind t.seatAt = some seat →
      (seat.userId = userId → seat.status = .playing →
        (a = .double → seat.cards.length = 2) → False) →
      ∀ seat', ¬ t.acceptsAction userId a seat' := by
    intro seat hseat hfalse seat' ⟨_, hseat', huser, hstatus, hdouble⟩
    rw [hseat] at hseat'
    cases hseat'
    exact hfalse huser hstatus hdouble
  unfold action
  split
  · rename_i hphase
    exact .inl ⟨_, rfl, fun _ h => hphase h.1⟩
  · rename_i hphase
    split
    · rename_i hseat
      refine .inl ⟨_, rfl, fun seat h => ?_⟩
      have hsome := h.2.1
      rw [hseat] at hsome
      cases hsome
    · rename_i seat hseat
      split
      · rename_i huser
        exact .inl ⟨_, rfl, hrefused hseat fun h _ _ => huser h⟩
      · rename_i huser
        split
        · rename_i hstatus
          exact .inl ⟨_, rfl, hrefused hseat fun _ h _ => hstatus h⟩
        · rename_i hstatus
          split
          · rename_i hcards
            exact .inl ⟨_, rfl, hrefused hseat fun _ _ h => hcards.2 (h hcards.1)⟩
          · rename_i hcards
            refine .inr ⟨seat, ⟨not_not.mp hphase, hseat, not_not.mp huser, not_not.mp hstatus,
              ?_⟩, rfl⟩
            intro hdouble
            exact not_not.mp fun hlength => hcards ⟨hdouble, hlength⟩

end Checks

/-! ## Stakes -/

/-- Who sits where, with which bet. -/
structure Stake where
  index : Nat
  userId : UserId
  bet : Option SeatBet
  deriving DecidableEq

def Seat.stake (s : Seat) : Stake := ⟨s.index, s.userId, s.bet⟩

def Table.stakes (t : Table) : List Stake := t.seats.map Seat.stake

theorem stakes_index (t : Table) : t.stakes.map Stake.index = t.seats.map Seat.index := by
  simp [Table.stakes, Seat.stake]

/-- Everything but the hands is the same. -/
structure SameButHands (t t' : Table) : Prop where
  stakes : t'.stakes = t.stakes
  phase : t'.phase = t.phase
  activeSeat : t'.activeSeat = t.activeSeat
  timer : t'.timer = t.timer
  roundDbId : t'.roundDbId = t.roundDbId
  exposure : t'.exposure = t.exposure

theorem SameButHands.refl (t : Table) : SameButHands t t := ⟨rfl, rfl, rfl, rfl, rfl, rfl⟩

theorem SameButHands.trans {t t' t'' : Table} (h : SameButHands t t') (h' : SameButHands t' t'') :
    SameButHands t t'' where
  stakes := h'.stakes.trans h.stakes
  phase := h'.phase.trans h.phase
  activeSeat := h'.activeSeat.trans h.activeSeat
  timer := h'.timer.trans h.timer
  roundDbId := h'.roundDbId.trans h.roundDbId
  exposure := h'.exposure.trans h.exposure

section Frames

variable {t t' : Table} {seat : Seat} {index : Nat} {userId : UserId} {f : Seat → Seat}
variable {stream : CardStream} {chainEnabled : Bool} {bet : SeatBet}

theorem map_stakes (hf : ∀ s, (f s).stake = s.stake) : (t.seats.map f).map Seat.stake = t.stakes := by
  rw [List.map_map, Table.stakes]
  exact List.map_congr_left fun s _ => hf s

/-- Fields other than the bet do not show. -/
theorem setSeat_same (hf : ∀ s, (f s).stake = s.stake) : SameButHands t (t.setSeat index f) := by
  refine ⟨map_stakes fun s => ?_, rfl, rfl, rfl, rfl, rfl⟩
  split
  · exact hf s
  · rfl

theorem dealTo_same (dealtTo : Recipient) : SameButHands t (t.dealTo stream dealtTo) := by
  cases dealtTo with
  | dealer => exact ⟨rfl, rfl, rfl, rfl, rfl, rfl⟩
  | seat index =>
    have hdrawn : SameButHands t (t.logDraw (.seat index) (t.nextCard stream)) :=
      ⟨rfl, rfl, rfl, rfl, rfl, rfl⟩
    exact hdrawn.trans (setSeat_same fun _ => rfl)

theorem foldl_dealTo_same (sequence : List Recipient) (t : Table) :
    SameButHands t (sequence.foldl (Table.dealTo stream) t) := by
  induction sequence generalizing t with
  | nil => exact .refl t
  | cons dealtTo rest ih => exact (dealTo_same dealtTo).trans (ih _)

theorem resolveSides_stake (dealerUp : Card) (s : Seat) : (s.resolveSides dealerUp).stake = s.stake := by
  unfold Seat.resolveSides
  split
  · rfl
  · rfl

theorem resolveSides_same (dealerUp : Card) :
    SameButHands t { t with seats := t.seats.map (Seat.resolveSides dealerUp) } :=
  ⟨map_stakes (resolveSides_stake dealerUp), rfl, rfl, rfl, rfl, rfl⟩

theorem dealCards_same : SameButHands t (dealCards stream t) := by
  have hdealt : SameButHands t (t.dealSequence.foldl (Table.dealTo stream) t) :=
    foldl_dealTo_same t.dealSequence t
  unfold dealCards
  dsimp only
  split
  · exact hdealt
  · exact hdealt.trans (resolveSides_same _)

theorem installRound_stakes (roundDbId : RoundId) (seed : RoundSeed)
    (guard : Option ExposureGuard) :
    (t.installRound roundDbId seed guard).stakes = t.stakes :=
  map_stakes fun _ => rfl

theorem foldEntropy_same (folded : Option String) : SameButHands t (t.foldEntropy folded) := by
  cases folded with
  | none => exact .refl t
  | some => exact ⟨rfl, rfl, rfl, rfl, rfl, rfl⟩

theorem settled_stake (dealerCards : List Card) (s : Seat) :
    (s.settled dealerCards).stake = s.stake := by
  unfold Seat.settled
  split
  · rfl
  · rfl

theorem settle_stakes : (settle t).1.stakes = t.stakes := map_stakes (settled_stake _)

/-! ## Turns -/

/-- The turn has moved on: to a seat with a bet, or to the dealer. -/
def TurnTo (t : Table) (r : Table × Bool) : Prop :=
  (∃ next ∈ t.seats, next.bet.isSome = true ∧ r = ({ t with
      activeSeat := some next.index
      timer := some (.turn next.index) }, false)) ∨ r = (t.startDealer, true)

theorem mem_bettingSeats {s : Seat} : s ∈ t.bettingSeats ↔ s ∈ t.seats ∧ s.bet.isSome = true := by
  unfold Table.bettingSeats
  rw [List.mem_mergeSort, List.mem_filter]

theorem advanceTurn_turnTo (fromIndex : Int) : TurnTo t (advanceTurn t fromIndex) := by
  unfold advanceTurn
  split
  · exact .inr rfl
  · rename_i next hnext
    have hbetting := mem_bettingSeats.mp (List.mem_of_find?_eq_some hnext)
    exact .inl ⟨next, hbetting.1, hbetting.2, rfl⟩

theorem afterAction_turnTo (seatIndex : Nat) : TurnTo t (afterAction t seatIndex) := by
  unfold afterAction
  split
  · exact advanceTurn_turnTo _
  · exact advanceTurn_turnTo _

/-- A timeout moves the turn on from a seat that was still playing, or does
nothing. -/
theorem turnTimeout_cases (expectSeat : Nat) :
    turnTimeout t expectSeat = (t, false) ∨
    (t.phase = .player_turns ∧ t.activeSeat = some expectSeat ∧
      (t.seatAt expectSeat).map (·.status) = some .playing ∧
      ∃ t', SameButHands t t' ∧ TurnTo t' (turnTimeout t expectSeat)) := by
  unfold turnTimeout
  split
  · rename_i h
    exact .inr ⟨h.1, h.2.1, h.2.2, t.setSeat expectSeat fun s => { s with status := .standing },
      setSeat_same fun _ => rfl, advanceTurn_turnTo _⟩
  · exact .inl rfl

/-! ## Deal -/

theorem sitOut_stakes (seats : List Seat) :
    ((sitOut seats).map Seat.stake).filter (·.bet.isSome) =
      (seats.map Seat.stake).filter (·.bet.isSome) := by
  induction seats with
  | nil => rfl
  | cons s seats ih =>
    unfold sitOut at ih ⊢
    by_cases hbet : s.bet.isSome = true
    · simp [hbet, Seat.stake, ih]
    · by_cases hidle : BLACKJACK.IDLE_ROUNDS_TO_UNSEAT ≤ s.idleRounds + 1
      · simp [hbet, hidle, Seat.stake, ih]
      · simp [hbet, hidle, Seat.stake, ih]

theorem sitOut_index (seats : List Seat) :
    ((sitOut seats).map Seat.stake).Sublist (seats.map Seat.stake) := by
  induction seats with
  | nil => exact .slnil
  | cons s seats ih =>
    unfold sitOut at ih ⊢
    by_cases hbet : s.bet.isSome = true
    · simpa [hbet] using ih
    · by_cases hidle : BLACKJACK.IDLE_ROUNDS_TO_UNSEAT ≤ s.idleRounds + 1
      · simpa [hbet, hidle] using ih.cons _
      · simpa [hbet, hidle, Seat.stake] using ih

theorem deal_eq : deal t = ({ t with
    seats := sitOut t.seats
    phase := if t.bettingSeats.isEmpty then .idle else .dealing }, !t.bettingSeats.isEmpty) := by
  unfold deal
  cases t.bettingSeats.isEmpty with
  | true => rfl
  | false => rfl

/-! ## One seat for each index -/

def Table.Distinct (t : Table) : Prop := (t.seats.map Seat.index).Nodup

theorem Table.Distinct.of_sublist (h : t.Distinct)
    (hsub : (t'.seats.map Seat.index).Sublist (t.seats.map Seat.index)) : t'.Distinct :=
  List.Nodup.sublist hsub h

theorem Table.Distinct.of_same (h : t.Distinct) (hsame : SameButHands t t') : t'.Distinct := by
  refine h.of_sublist ?_
  rw [← stakes_index, hsame.stakes, stakes_index]

theorem Table.Distinct.setSeat (hf : ∀ s, (f s).index = s.index) (h : t.Distinct) :
    (t.setSeat index f).Distinct := by
  refine h.of_sublist ?_
  show ((t.seats.map fun s => if s.index = index then f s else s).map Seat.index).Sublist _
  rw [keys_updateKey Seat.index index hf]

theorem Table.Distinct.map (hf : ∀ s, (f s).index = s.index) (h : t.Distinct) :
    (t.seats.map f |>.map Seat.index).Nodup := by
  have hindex : t.seats.map (Seat.index ∘ f) = t.seats.map Seat.index :=
    List.map_congr_left fun s _ => hf s
  rw [List.map_map, hindex]
  exact h

theorem Table.Distinct.deleteSeat (h : t.Distinct) : (t.deleteSeat index).Distinct :=
  h.of_sublist (List.filter_sublist.map _)

/-- The seat at its index is the seat. -/
theorem Table.Distinct.seatAt (h : t.Distinct) (hmem : seat ∈ t.seats) :
    t.seatAt seat.index = some seat := by
  cases hfound : t.seatAt seat.index with
  | none =>
    have hnone := List.find?_eq_none.mp hfound seat hmem
    simp at hnone
  | some =>
    obtain ⟨hfoundMem, hindex⟩ := seatAt_mem hfound
    rw [List.inj_on_of_nodup_map h hfoundMem hmem hindex]

theorem seatAt_setSeat (hf : ∀ s, (f s).index = s.index) :
    (t.setSeat index f).seatAt index = (t.seatAt index).map f := by
  unfold Table.seatAt Table.setSeat
  dsimp only
  induction t.seats with
  | nil => rfl
  | cons s seats ih =>
    by_cases hindex : s.index = index
    · simp [hindex, hf]
    · simp only [List.map_cons, if_neg hindex]
      rw [List.find?_cons_of_neg (by simpa using hindex),
        List.find?_cons_of_neg (by simpa using hindex)]
      exact ih

/-- No bet, no hand. -/
theorem deal_cases (t : Table) :
    (t.bettingSeats = [] ∧ deal t = ({ t with
      seats := sitOut t.seats
      phase := .idle }, false)) ∨
    (t.bettingSeats ≠ [] ∧ deal t = ({ t with
      seats := sitOut t.seats
      phase := .dealing }, true)) := by
  rw [deal_eq]
  cases hbetting : t.bettingSeats with
  | nil => exact .inl ⟨rfl, rfl⟩
  | cons => exact .inr ⟨nofun, rfl⟩

/-- Someone sits down at a free index, or nobody does. -/
theorem takeSeat_cases (t : Table) (seatIndex : Nat) (userId : UserId) :
    (∃ e, takeSeat t seatIndex userId = (t, .error e)) ∨
    (seatIndex ∉ t.seats.map Seat.index ∧ takeSeat t seatIndex userId =
      ({ t with seats := t.seats ++ [newSeat seatIndex userId] }, .ok ())) := by
  unfold takeSeat
  split
  · exact .inl ⟨_, rfl⟩
  · split
    · exact .inl ⟨_, rfl⟩
    · split
      · exact .inl ⟨_, rfl⟩
      · rename_i hfree
        split
        · exact .inl ⟨_, rfl⟩
        · refine .inr ⟨?_, rfl⟩
          intro hmem
          obtain ⟨s, hs, hindex⟩ := List.mem_map.mp hmem
          simp only [Table.seatAt, Bool.not_eq_true, Option.isSome_eq_false_iff,
            Option.isNone_iff_eq_none, List.find?_eq_none] at hfree
          have hbusy := hfree s hs
          simp [hindex] at hbusy

theorem takeSeat_distinct (seatIndex : Nat) (h : t.Distinct) :
    (takeSeat t seatIndex userId).1.Distinct := by
  rcases takeSeat_cases t seatIndex userId with ⟨e, htake⟩ | ⟨hnew, htake⟩
  · rw [htake]
    exact h
  · rw [htake]
    show (t.seats ++ [newSeat seatIndex userId] |>.map Seat.index).Nodup
    rw [List.map_append, List.nodup_append]
    refine ⟨h, List.nodup_singleton _, ?_⟩
    intro a ha b hb
    cases List.mem_singleton.mp hb
    intro heq
    rw [heq] at ha
    exact hnew ha

theorem clearSettled_distinct (h : t.Distinct) : t.clearSettled.Distinct := by
  unfold Table.clearSettled
  split
  · exact h.map fun _ => rfl
  · exact h

theorem placed_distinct (h : t.Distinct) : (t.placed chainEnabled bet seat).Distinct := by
  unfold Table.placed
  refine Table.Distinct.setSeat (fun _ => rfl) ?_
  obtain ⟨_, heq⟩ := holdExposure_eq chainEnabled t.clearSettled (t.placingSeat seat) bet
  rw [heq]
  exact clearSettled_distinct h

theorem refused_distinct {userId : UserId} (h : t.Distinct)
    (hrefused : t.Refused chainEnabled userId bet t') : t'.Distinct := by
  rcases hrefused with rfl | ⟨found, -, -, -, rfl⟩
  · exact h
  · obtain ⟨_, heq⟩ := holdExposure_eq chainEnabled t found bet
    rw [heq]
    exact h

theorem act_index (a : Action) (card : Card) (s : Seat) : (s.act a card).index = s.index := by
  cases a with
  | hit => rfl
  | stand => rfl
  | double => rfl

theorem acted_distinct {a : Action} (h : t.Distinct) : (t.acted stream a seat).Distinct := by
  unfold Table.acted
  refine Table.Distinct.setSeat (act_index a _) ?_
  split
  · exact h
  · exact h

/-- A bet that is taken changes seats and the guard. -/
theorem placed_frame :
    (t.placed chainEnabled bet seat).phase = t.phase ∧
      (t.placed chainEnabled bet seat).timer = t.timer ∧
      (t.placed chainEnabled bet seat).roundDbId = t.roundDbId := by
  obtain ⟨_, heq⟩ := holdExposure_eq chainEnabled t.clearSettled (t.placingSeat seat) bet
  rw [Table.placed, heq]
  unfold Table.clearSettled
  split
  · exact ⟨rfl, rfl, rfl⟩
  · exact ⟨rfl, rfl, rfl⟩

/-- An action changes a seat and the deck. -/
theorem acted_frame {a : Action} :
    (t.acted stream a seat).phase = t.phase ∧ (t.acted stream a seat).timer = t.timer ∧
      (t.acted stream a seat).roundDbId = t.roundDbId ∧
      (t.acted stream a seat).exposure = t.exposure := by
  unfold Table.acted
  split
  · exact ⟨rfl, rfl, rfl, rfl⟩
  · exact ⟨rfl, rfl, rfl, rfl⟩

theorem turnTo_roundDbId {r : Table × Bool} (h : TurnTo t r) : r.1.roundDbId = t.roundDbId := by
  rcases h with ⟨_, -, -, rfl⟩ | rfl
  · rfl
  · rfl

theorem turnTo_stakes {r : Table × Bool} (h : TurnTo t r) : r.1.stakes = t.stakes := by
  rcases h with ⟨_, -, -, rfl⟩ | rfl
  · rfl
  · rfl

/-- A hit or a stand leaves the stakes. -/
theorem acted_stakes {a : Action} (ha : a ≠ .double) : (t.acted stream a seat).stakes = t.stakes := by
  unfold Table.acted
  have hset : ∀ t' : Table, t'.stakes = t.stakes →
      (t'.setSeat seat.index fun s => s.act a (t.nextCard stream)).stakes = t.stakes := by
    intro t' ht'
    rw [← ht']
    refine (setSeat_same fun s => ?_).stakes
    cases a with
    | hit => rfl
    | stand => rfl
    | double => exact absurd rfl ha
  split
  · exact hset t rfl
  · exact hset _ rfl

/-- One seat's stake changes. -/
theorem weight_setSeat (g : Stake → Nat) (h : t.Distinct) (hmem : seat ∈ t.seats) :
    weight g (t.setSeat seat.index f).stakes + g seat.stake =
      weight g t.stakes + g (f seat).stake := by
  rw [Table.stakes, Table.stakes, weight_map, weight_map]
  exact weight_updateKey Seat.index (g ∘ Seat.stake) f h hmem

theorem weight_deleteSeat (g : Stake → Nat) (h : t.Distinct) (hmem : seat ∈ t.seats) :
    weight g (t.deleteSeat seat.index).stakes + g seat.stake = weight g t.stakes := by
  rw [Table.stakes, Table.stakes, weight_map, weight_map]
  exact weight_deleteKey Seat.index (g ∘ Seat.stake) h hmem

/-- Whoever sits out has no stake. -/
theorem weight_sitOut (g : Stake → Nat) (hg : ∀ k, k.bet = none → g k = 0) (seats : List Seat) :
    weight g ((sitOut seats).map Seat.stake) = weight g (seats.map Seat.stake) := by
  have hfilter : ∀ l : List Stake, weight g (l.filter (·.bet.isSome)) = weight g l := fun l =>
    weight_filter fun k _ hbet => hg k (by simpa using hbet)
  rw [← hfilter, sitOut_stakes, hfilter]

end Frames

end Scadium.Games.Blackjack
