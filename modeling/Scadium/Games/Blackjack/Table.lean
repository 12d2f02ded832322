/-
Scadium.Games.Blackjack.Table — a blackjack table in memory
(`games/blackjack/blackjack.engine.ts`).

Every function here is what the engine does between two awaits: it takes the
table and gives back the table it leaves behind, with what it returns or
throws. A call that throws may leave the table changed, so the two come
together. The seats are a list in the order of the source's map.

Left out are the deadlines and names only the client reads, and the messages
to the gateway.
-/
import Mathlib
import Scadium.Common.ExposureGuard
import Scadium.Fair.Blackjack

namespace Scadium.Games.Blackjack

open Scadium.Common (ExposureGuard)
open Scadium.Fair Scadium.Prisma Scadium.Shared

inductive Phase where
  | idle | betting | dealing | player_turns | dealer_turn | settled
  deriving DecidableEq

inductive HandStatus where
  | playing | standing | busted | blackjack
  deriving DecidableEq

inductive SeatResult where
  | win | lose | push | blackjack
  deriving DecidableEq

structure SeatBet where
  mainLamports : Nat
  side21p3Lamports : Nat
  sidePerfectPairsLamports : Nat
  deriving DecidableEq

def SeatBet.betTotal (b : SeatBet) : Nat :=
  b.mainLamports + b.side21p3Lamports + b.sidePerfectPairsLamports

structure Seat where
  index : Nat
  userId : UserId
  /-- Consecutive rounds without a bet. -/
  idleRounds : Nat
  bet : Option SeatBet
  cards : List Card
  status : HandStatus
  doubled : Bool
  side21p3Outcome : Option TwentyOnePlusThreeOutcome
  sidePerfectPairsOutcome : Option PerfectPairsOutcome
  result : Option SeatResult
  payoutLamports : Nat
  deriving DecidableEq

/-- Who a card is dealt to. -/
inductive Recipient where
  | seat (index : Nat)
  | dealer
  deriving DecidableEq

/-- One draw, as the deal log records it. The hand id is the recipient's. -/
structure DealLogEntry where
  deckIndex : Nat
  dealtTo : Recipient
  card : Card
  deriving DecidableEq

/-- What the one timer of a table is set for. -/
inductive Timer where
  | deal
  | turn (seatIndex : Nat)
  | settlePause
  deriving DecidableEq

structure Table where
  isPrivate : Bool
  ownerId : Option UserId
  maxSeats : Nat
  phase : Phase
  /-- Whose turn it is, by seat index. -/
  activeSeat : Option Nat
  seats : List Seat
  dealerCards : List Card
  dealerHidden : Bool
  deckIndex : Nat
  dealLog : List DealLogEntry
  roundDbId : Option RoundId
  serverSeed : Option String
  clientSeed : Option String
  /-- The seed the deck is dealt from. -/
  dealSeed : Option String
  nonce : Nat
  timer : Option Timer
  exposure : Option ExposureGuard
  deriving DecidableEq

/-- `createTable` -/
def createTable (isPrivate : Bool) (ownerId : Option UserId) : Table where
  isPrivate := isPrivate
  ownerId := ownerId
  maxSeats := if isPrivate then 1 else BLACKJACK.MAX_SEATS
  phase := .idle
  activeSeat := none
  seats := []
  dealerCards := []
  dealerHidden := true
  deckIndex := 0
  dealLog := []
  roundDbId := none
  serverSeed := none
  clientSeed := none
  dealSeed := none
  nonce := 0
  timer := none
  exposure := none

/-- The stream of cards of `blackjackDeal`: seeds, nonce and deck index. -/
abbrev CardStream := (serverSeed clientSeed : String) → (nonce deckIndex : Nat) → Card

/-! ## Seats -/

/-- `[...t.seats.values()].find((s) => s.userId === userId)` -/
def Table.seatOf (t : Table) (userId : UserId) : Option Seat := t.seats.find? (·.userId == userId)

/-- `t.seats.get(index)` -/
def Table.seatAt (t : Table) (index : Nat) : Option Seat := t.seats.find? (·.index == index)

/-- An assignment to fields of the seat at an index. -/
def Table.setSeat (t : Table) (index : Nat) (f : Seat → Seat) : Table :=
  { t with seats := t.seats.map fun s => if s.index = index then f s else s }

/-- `t.seats.delete(index)` -/
def Table.deleteSeat (t : Table) (index : Nat) : Table :=
  { t with seats := t.seats.filter (·.index != index) }

/-- The seats with a bet, by seat index. -/
def Table.bettingSeats (t : Table) : List Seat :=
  (t.seats.filter (·.bet.isSome)).mergeSort fun a b => decide (a.index ≤ b.index)

def newSeat (index : Nat) (userId : UserId) : Seat where
  index := index
  userId := userId
  idleRounds := 0
  bet := none
  cards := []
  status := .playing
  doubled := false
  side21p3Outcome := none
  sidePerfectPairsOutcome := none
  result := none
  payoutLamports := 0

def takeSeat (t : Table) (seatIndex : Nat) (userId : UserId) : Table × Except String Unit :=
  if t.maxSeats ≤ seatIndex then (t, .error "Invalid seat")
  else if t.isPrivate ∧ t.ownerId ≠ some userId then (t, .error "Private table")
  else if (t.seatAt seatIndex).isSome then (t, .error "Seat taken")
  else if (t.seatOf userId).isSome then (t, .error "You are already seated at this table")
  else ({ t with seats := t.seats ++ [newSeat seatIndex userId] }, .ok ())

/-- What `leaveSeat` gives back, and whether the stakes have to be saved. -/
structure Left where
  refundLamports : Nat
  wasBetting : Bool
  deriving DecidableEq

/-- `leaveSeat`, up to its await. The reservation of a bet that leaves with
its seat is not released. -/
def leaveSeat (t : Table) (userId : UserId) : Table × Except String Left :=
  match t.seatOf userId with
  | none => (t, .error "Not seated")
  | some seat =>
      match seat.bet with
      | none => (t.deleteSeat seat.index, .ok ⟨0, false⟩)
      | some bet =>
          if t.phase = .betting then (t.deleteSeat seat.index, .ok ⟨bet.betTotal, true⟩)
          else if t.phase ≠ .idle ∧ t.phase ≠ .settled then
            (t, .error "Hand in progress — finish the round first")
          else (t.deleteSeat seat.index, .ok ⟨0, false⟩)

/-! ## Betting -/

/-- `potential(betTotal, MAX_PAYOUT_X)` -/
def potentialOf (total : Nat) : Nat := ExposureGuard.potential total BLACKJACK.MAX_PAYOUT_X

/-- Bets are taken between rounds and in the betting window. -/
def Phase.takesBets : Phase → Bool
  | .idle | .betting | .settled => true
  | .dealing | .player_turns | .dealer_turn => false

def Seat.clearBet (s : Seat) : Seat := { s with bet := none }

/-- A bet that comes after a settle: the stakes of the last round go first. -/
def Table.clearSettled (t : Table) : Table :=
  if t.phase = .settled then { t with seats := t.seats.map Seat.clearBet } else t

/-- `prev`: what the bet on the seat comes to. -/
def Seat.staked (s : Seat) : Nat :=
  match s.bet with
  | some bet => bet.betTotal
  | none => 0

/-- `prevPotential` -/
def Seat.reservation (s : Seat) : Nat := if 0 < s.staked then potentialOf s.staked else 0

/-- The swap of a reservation: the guard, and whether the new bet fits. A
bet that does not fit gives the old one its hold back. -/
def swapReservation (guard : ExposureGuard) (prevPotential potential : Nat) :
    ExposureGuard × Bool :=
  let released := guard.release prevPotential
  match released.reserve potential with
  | some guard' => (guard', true)
  | none => ((released.reserve prevPotential).getD released, false)

/-- The house exposure cap, inside an open window only. -/
def Table.holdExposure (chainEnabled : Bool) (t : Table) (seat : Seat) (bet : SeatBet) :
    Table × Bool :=
  match chainEnabled && t.phase == .betting, t.exposure with
  | true, some guard =>
      let swapped := swapReservation guard seat.reservation (potentialOf bet.betTotal)
      ({ t with exposure := some swapped.1 }, swapped.2)
  | _, _ => (t, true)

/-- What `placeBet` returns, and whether it opens the betting window. -/
structure Placed where
  previousTotalLamports : Nat
  opens : Bool
  deriving DecidableEq

def Seat.place (bet : SeatBet) (s : Seat) : Seat :=
  { s with
    bet := some bet
    idleRounds := 0 }

/-- `placeBet`, up to its await. -/
def placeBet (chainEnabled : Bool) (t : Table) (userId : UserId) (bet : SeatBet) :
    Table × Except String Placed :=
  if ¬ t.phase.takesBets then (t, .error "Bets are closed — wait for the next round")
  else
    match t.seatOf userId with
    | none => (t, .error "Take a seat first")
    | some found =>
        let seat := if t.phase = .settled then found.clearBet else found
        let held := t.clearSettled.holdExposure chainEnabled seat bet
        if held.2 then
          (held.1.setSeat seat.index (Seat.place bet), .ok ⟨seat.staked, t.phase ≠ .betting⟩)
        else (held.1, .error "Round exposure limit reached — try a smaller bet or the next round")

/-- `clearBet`, up to its await. -/
def clearBet (t : Table) (userId : UserId) : Table × Except String Nat :=
  if t.phase ≠ .betting then (t, .error "No open betting window")
  else
    match t.seatOf userId with
    | none => (t, .error "No bet to clear")
    | some seat =>
        match seat.bet with
        | none => (t, .error "No bet to clear")
        | some bet =>
            let cleared := t.setSeat seat.index Seat.clearBet
            ({ cleared with
                exposure := t.exposure.map (·.release (potentialOf bet.betTotal)) },
              .ok bet.betTotal)

/-! ## The rows of a round -/

/-- A seat as the snapshot shows it. -/
structure SeatView where
  index : Nat
  userId : UserId
  bet : Option SeatBet
  cards : List Card
  total : Option Nat
  status : HandStatus
  doubled : Bool
  side21p3Outcome : Option TwentyOnePlusThreeOutcome
  sidePerfectPairsOutcome : Option PerfectPairsOutcome
  result : Option SeatResult
  payoutLamports : Nat
  deriving DecidableEq

structure Snapshot where
  phase : Phase
  activeSeat : Option Nat
  seats : List SeatView
  dealerCards : List (Option Card)
  dealerTotal : Option Nat
  serverSeed : Option String
  dealLog : Option (List DealLogEntry)
  clientSeed : Option String
  nonce : Nat
  deriving DecidableEq

/-- What `stateJson` of a round holds. -/
inductive StateJson where
  | empty
  | betting (seats : List (UserId × SeatBet))
  | snapshot (s : Snapshot)
  deriving DecidableEq

def Seat.view (s : Seat) : SeatView where
  index := s.index
  userId := s.userId
  bet := s.bet
  cards := s.cards
  total := if s.cards.isEmpty then none else some (handValue s.cards).total
  status := s.status
  doubled := s.doubled
  side21p3Outcome := s.side21p3Outcome
  sidePerfectPairsOutcome := s.sidePerfectPairsOutcome
  result := s.result
  payoutLamports := s.payoutLamports

/-- `snapshot`: the hole card, the seed and the deal log are hidden while
they have to be. -/
def Table.snapshot (t : Table) : Snapshot where
  phase := t.phase
  activeSeat := t.activeSeat
  seats := t.seats.map Seat.view
  dealerCards := t.dealerCards.mapIdx fun i c => if t.dealerHidden ∧ i = 1 then none else some c
  dealerTotal :=
    if t.dealerCards.isEmpty then none
    else if t.dealerHidden then some (handValue (t.dealerCards.take 1)).total
    else some (handValue t.dealerCards).total
  serverSeed := if t.phase = .settled ∨ t.phase = .idle then t.serverSeed else none
  dealLog := if t.phase = .settled ∨ t.phase = .idle then some t.dealLog else none
  clientSeed := t.clientSeed
  nonce := t.nonce

/-- The bets at a table, with who they are of. -/
def Table.bets (t : Table) : List (UserId × SeatBet) :=
  t.seats.filterMap fun s => s.bet.map fun bet => (s.userId, bet)

/-- The write of `persistBettingStakes`: which row, and what goes into it. -/
def Table.bettingStakes (t : Table) : Option (RoundId × StateJson) :=
  t.roundDbId.map fun roundDbId => (roundDbId, .betting t.bets)

/-- The bets that a saved `stateJson` shows. -/
def StateJson.bets : StateJson → List (UserId × SeatBet)
  | .empty => []
  | .betting seats => seats
  | .snapshot s => s.seats.filterMap fun v => v.bet.map fun bet => (v.userId, bet)

/-- `parseSeatStakes` -/
def parseSeatStakes (stateJson : StateJson) : List (UserId × Nat) :=
  stateJson.bets.map fun p => (p.1, p.2.betTotal)

/-! ## Opening the window -/

/-- What `openBetting` does before its first await. -/
def Table.openPrologue (t : Table) : Table :=
  { t with
    timer := none
    phase := .betting }

/-- The fresh seed of a round. -/
structure RoundSeed where
  serverSeed : String
  clientSeed : String
  deriving DecidableEq

/-- The opening reservations; one that does not fit is only logged. -/
def reserveOpening (guard : ExposureGuard) (seats : List Seat) : ExposureGuard :=
  seats.foldl (fun g s =>
    match s.bet with
    | none => g
    | some bet => (g.reserve (potentialOf bet.betTotal)).getD g) guard

/-- The seats persist across rounds, their hands do not. -/
def Seat.resetRound (s : Seat) : Seat :=
  { s with
    cards := []
    status := .playing
    doubled := false
    side21p3Outcome := none
    sidePerfectPairsOutcome := none
    result := none
    payoutLamports := 0 }

/-- The rest of the window's opening, once the bankroll is known: the guard,
the seats and the round. -/
def Table.installRound (t : Table) (roundDbId : RoundId) (seed : RoundSeed)
    (guard : Option ExposureGuard) : Table :=
  { t with
    exposure := guard.map (reserveOpening · t.seats)
    seats := t.seats.map Seat.resetRound
    activeSeat := none
    dealerCards := []
    dealerHidden := true
    deckIndex := 0
    dealLog := []
    roundDbId := some roundDbId
    serverSeed := some seed.serverSeed
    clientSeed := some seed.clientSeed
    nonce := 0
    dealSeed := some seed.serverSeed }

/-- The deck is dealt from the folded seed when there is entropy. -/
def Table.foldEntropy (t : Table) (folded : Option String) : Table :=
  match folded with
  | some dealSeed => { t with dealSeed := some dealSeed }
  | none => t

def Table.setTimer (t : Table) (timer : Timer) : Table := { t with timer := some timer }

/-! ## The deal -/

/-- `drawCard` -/
def Table.nextCard (stream : CardStream) (t : Table) : Card :=
  stream (t.dealSeed.getD "") (t.clientSeed.getD "") t.nonce t.deckIndex

def Table.logDraw (t : Table) (dealtTo : Recipient) (card : Card) : Table :=
  { t with
    deckIndex := t.deckIndex + 1
    dealLog := t.dealLog ++ [⟨t.deckIndex, dealtTo, card⟩] }

/-- A card drawn and added to the hand it is dealt to. -/
def Table.dealTo (stream : CardStream) (t : Table) (dealtTo : Recipient) : Table :=
  let card := t.nextCard stream
  match dealtTo with
  | .dealer => { t.logDraw .dealer card with dealerCards := t.dealerCards ++ [card] }
  | .seat index =>
      (t.logDraw (.seat index) card).setSeat index fun s => { s with cards := s.cards ++ [card] }

/-- The seats that sat out, less those that did so too often. -/
def sitOut (seats : List Seat) : List Seat :=
  seats.filterMap fun s =>
    if s.bet.isSome then some s
    else if BLACKJACK.IDLE_ROUNDS_TO_UNSEAT ≤ s.idleRounds + 1 then none
    else some { s with idleRounds := s.idleRounds + 1 }

/-- `deal`, up to its first await, and whether there is a hand to deal. -/
def deal (t : Table) : Table × Bool :=
  let seated := { t with seats := sitOut t.seats }
  if t.bettingSeats.isEmpty then ({ seated with phase := .idle }, false)
  else ({ seated with phase := .dealing }, true)

/-- Two passes over the seats, each with a card for the dealer at its end. -/
def Table.dealSequence (t : Table) : List Recipient :=
  let pass := t.bettingSeats.map (Recipient.seat ·.index) ++ [.dealer]
  pass ++ pass

/-- The side bets resolve off the first two cards and the dealer's up-card. -/
def Seat.resolveSides (dealerUp : Card) (s : Seat) : Seat :=
  match s.bet, s.cards with
  | some bet, p1 :: p2 :: _ =>
      { s with
        side21p3Outcome :=
          if 0 < bet.side21p3Lamports then some (evaluate21Plus3 p1 p2 dealerUp)
          else s.side21p3Outcome
        sidePerfectPairsOutcome :=
          if 0 < bet.sidePerfectPairsLamports then some (evaluatePerfectPairs p1 p2)
          else s.sidePerfectPairsOutcome
        status := if isBlackjack s.cards then .blackjack else s.status }
  | _, _ => s

/-- The cards of a round, dealt. -/
def dealCards (stream : CardStream) (t : Table) : Table :=
  let dealt := t.dealSequence.foldl (Table.dealTo stream) t
  match dealt.dealerCards with
  | [] => dealt
  | dealerUp :: _ => { dealt with seats := dealt.seats.map (Seat.resolveSides dealerUp) }

/-! ## Turns -/

/-- `dealerTurn`, up to its first await. -/
def Table.startDealer (t : Table) : Table :=
  { t with
    timer := none
    phase := .dealer_turn
    activeSeat := none }

/-- The first seat after an index that can act. -/
def Table.nextToAct (t : Table) (fromIndex : Int) : Option Seat :=
  t.bettingSeats.find? fun s => decide (fromIndex < s.index) && s.status == .playing

/-- `advanceTurn`, and whether it is the dealer's turn now. -/
def advanceTurn (t : Table) (fromIndex : Int) : Table × Bool :=
  match t.nextToAct fromIndex with
  | none => (t.startDealer, true)
  | some next =>
      ({ t with
          activeSeat := some next.index
          timer := some (.turn next.index) }, false)

def startPlayerTurns (t : Table) : Table × Bool :=
  advanceTurn { t with phase := .player_turns } (-1)

/-- The clock of a turn runs out: whoever is still on it stands. -/
def turnTimeout (t : Table) (expectSeat : Nat) : Table × Bool :=
  if t.phase = .player_turns ∧ t.activeSeat = some expectSeat ∧
      ((t.seatAt expectSeat).map (·.status)) = some .playing then
    advanceTurn (t.setSeat expectSeat fun s => { s with status := .standing }) expectSeat
  else (t, false)

inductive Action where
  | hit | stand | double
  deriving DecidableEq

/-- What the cards say after a hit or a double. -/
def statusAfter (a : Action) (cards : List Card) (status : HandStatus) : HandStatus :=
  if isBust cards then .busted
  else if a = .double then .standing
  else if (handValue cards).total = 21 then .standing
  else status

/-- The seat after an action, with the card it drew. -/
def Seat.act (s : Seat) (a : Action) (card : Card) : Seat :=
  match a with
  | .stand => { s with status := .standing }
  | .hit =>
      { s with
        cards := s.cards ++ [card]
        status := statusAfter .hit (s.cards ++ [card]) s.status }
  | .double =>
      { s with
        cards := s.cards ++ [card]
        doubled := true
        bet := s.bet.map fun bet => { bet with mainLamports := bet.mainLamports * 2 }
        status := statusAfter .double (s.cards ++ [card]) s.status }

/-- `action`, up to its await: the seat that acted. -/
def action (stream : CardStream) (t : Table) (userId : UserId) (a : Action) :
    Table × Except String Nat :=
  if t.phase ≠ .player_turns then (t, .error "Not your turn")
  else
    match t.activeSeat.bind t.seatAt with
    | none => (t, .error "Not your turn")
    | some seat =>
        if seat.userId ≠ userId then (t, .error "Not your turn")
        else if seat.status ≠ .playing then (t, .error "Hand already finished")
        else if a = .double ∧ seat.cards.length ≠ 2 then
          (t, .error "Double only on the first two cards")
        else
          let card := t.nextCard stream
          let drawn := if a = .stand then t else t.logDraw (.seat seat.index) card
          (drawn.setSeat seat.index fun s => s.act a card, .ok seat.index)

/-- The end of `action`: the same seat goes on, or the turn does. -/
def afterAction (t : Table) (seatIndex : Nat) : Table × Bool :=
  if (t.seatAt seatIndex).map (·.status) = some .playing then
    advanceTurn t ((seatIndex : Int) - 1)
  else advanceTurn t seatIndex

/-! ## The dealer and the settle -/

def Table.revealHole (t : Table) : Table := { t with dealerHidden := false }

/-- The dealer has to draw: someone can still win, and the hand is below 17
or a soft 17. -/
def Table.dealerDraws (t : Table) : Bool :=
  let v := handValue t.dealerCards
  t.bettingSeats.any (fun s => s.status == .standing || s.status == .blackjack) &&
    (decide (v.total < 17) || (v.total == 17 && v.soft))

/-- The result of the main hand and what it pays. -/
def mainPayout (dealerCards : List Card) (s : Seat) (bet : SeatBet) : SeatResult × Nat :=
  match s.status with
  | .blackjack =>
      if isBlackjack dealerCards then (.push, bet.mainLamports)
      else (.blackjack, bet.mainLamports * 5 / 2)
  | .busted => (.lose, 0)
  | .playing | .standing =>
      let total := (handValue s.cards).total
      let dealerTotal := (handValue dealerCards).total
      if isBlackjack dealerCards then (.lose, 0)
      else if isBust dealerCards ∨ dealerTotal < total then (.win, bet.mainLamports * 2)
      else if total = dealerTotal then (.push, bet.mainLamports)
      else (.lose, 0)

/-- `BLACKJACK.SIDE_BETS.twentyOnePlusThree` -/
def twentyOnePlusThree : TwentyOnePlusThreeOutcome → Nat
  | .suited_trips => 100
  | .straight_flush => 40
  | .three_of_a_kind => 30
  | .straight => 10
  | .flush => 6
  | .none => 0

/-- `BLACKJACK.SIDE_BETS.perfectPairs` -/
def perfectPairs : PerfectPairsOutcome → Nat
  | .perfect => 25
  | .colored => 12
  | .mixed => 6
  | .none => 0

/-- What the side bets pay. -/
def sidePayout (s : Seat) (bet : SeatBet) : Nat :=
  bet.side21p3Lamports * (s.side21p3Outcome.elim 0 twentyOnePlusThree) +
    bet.sidePerfectPairsLamports * (s.sidePerfectPairsOutcome.elim 0 perfectPairs)

/-- What the settle of one seat moves. -/
structure SeatData where
  userId : UserId
  seatIndex : Nat
  stake : Nat
  payout : Nat
  deriving DecidableEq

/-- The settle of one seat, if it has a bet. -/
def Seat.settle (dealerCards : List Card) (s : Seat) : Option SeatData :=
  s.bet.map fun bet =>
    { userId := s.userId
      seatIndex := s.index
      stake := bet.betTotal
      payout := (mainPayout dealerCards s bet).2 + sidePayout s bet }

/-- The seat with its result and its payout. -/
def Seat.settled (dealerCards : List Card) (s : Seat) : Seat :=
  match s.bet with
  | none => s
  | some bet =>
      { s with
        result := some (mainPayout dealerCards s bet).1
        payoutLamports := (mainPayout dealerCards s bet).2 + sidePayout s bet }

/-- The first phase of `settle`: results in memory, the data of its
transaction, and the phase flipped. -/
def settle (t : Table) : Table × List SeatData :=
  ({ t with
      seats := t.seats.map (Seat.settled t.dealerCards)
      phase := .settled },
    t.bettingSeats.filterMap (Seat.settle t.dealerCards))

/-- The end of the pause on a result. -/
def settlePause (t : Table) : Table :=
  if t.phase ≠ .settled then t
  else
    { t with
      seats := t.seats.map Seat.clearBet
      phase := .idle }

end Scadium.Games.Blackjack
