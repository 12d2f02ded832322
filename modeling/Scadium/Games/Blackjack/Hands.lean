/-
Scadium.Games.Blackjack.Hands — the deal log of a table and the hands on it.

Cards are drawn in four places of the engine, all through one counter.
`Logged` says that the log is the deck from its first card on, and `Dealt`
that every hand of the round is what the log says was dealt to it, the hands
coming up in the order of the seats and the dealer's last. The lemmas say what
every function that touches a seat, a card or a seed does to the two.
-/
import Scadium.Games.Blackjack.TableTheorems

namespace Scadium.Games.Blackjack

open Scadium.Common (ExposureGuard)
open Scadium.Fair Scadium.Lib Scadium.Prisma

/-! ## The log -/

/-- The cards of the log that were dealt to one hand. -/
def Table.dealtTo (t : Table) (recipient : Recipient) : List Card :=
  (t.dealLog.filter (·.dealtTo = recipient)).map (·.card)

/-- The log is the deck from its first card on, and the dealer has what it
says. -/
structure Logged (stream : CardStream) (t : Table) : Prop where
  indexes : t.dealLog.map (·.deckIndex) = List.range t.deckIndex
  cards : ∀ e ∈ t.dealLog,
    e.card = stream (t.dealSeed.getD "") (t.clientSeed.getD "") t.nonce e.deckIndex
  dealer : t.dealerCards = t.dealtTo .dealer

/-- A round is on the table, and every seat has the cards the log dealt it. -/
structure HandsLogged (t : Table) : Prop where
  serverSeed : t.serverSeed.isSome = true
  clientSeed : t.clientSeed.isSome = true
  hands : ∀ s ∈ t.seats, s.cards = t.dealtTo (.seat s.index)

/-- The hands of a round in the order they come up: the seats, then the
dealer. -/
def Table.dealOrder (t : Table) : List Recipient :=
  t.bettingSeats.map (Recipient.seat ·.index) ++ [.dealer]

/-- No card of the round is dealt. -/
structure Undealt (t : Table) : Prop extends HandsLogged t where
  log : t.dealLog = []

/-- The bets are closed, and the cards of the round are dealt. -/
structure Dealt (t : Table) : Prop extends HandsLogged t where
  closed : t.phase ≠ .betting
  order : (t.dealLog.map (·.dealtTo)).eraseDups = t.dealOrder

/-! ## Frames -/

/-- What a seat shows of its hand. -/
structure HandView where
  index : Nat
  betting : Bool
  cards : List Card
  deriving DecidableEq

def Seat.handView (s : Seat) : HandView := ⟨s.index, s.bet.isSome, s.cards⟩

/-- The deck, the log and the dealer's hand are the same. -/
structure SameDeck (t t' : Table) : Prop where
  deckIndex : t'.deckIndex = t.deckIndex
  dealLog : t'.dealLog = t.dealLog
  dealerCards : t'.dealerCards = t.dealerCards
  serverSeed : t'.serverSeed = t.serverSeed
  clientSeed : t'.clientSeed = t.clientSeed
  dealSeed : t'.dealSeed = t.dealSeed
  nonce : t'.nonce = t.nonce

/-- So are the seats' hands. -/
structure SameHands (t t' : Table) : Prop extends SameDeck t t' where
  hands : t'.seats.map Seat.handView = t.seats.map Seat.handView

section Frames

variable {stream : CardStream} {t t' : Table}

theorem SameDeck.refl (t : Table) : SameDeck t t := ⟨rfl, rfl, rfl, rfl, rfl, rfl, rfl⟩

theorem SameHands.refl (t : Table) : SameHands t t := ⟨.refl t, rfl⟩

theorem SameDeck.dealtTo (h : SameDeck t t') (recipient : Recipient) :
    t'.dealtTo recipient = t.dealtTo recipient := by
  rw [Table.dealtTo, h.dealLog, Table.dealtTo]

theorem Logged.of_same (h : Logged stream t) (hsame : SameDeck t t') : Logged stream t' := by
  refine ⟨?_, ?_, ?_⟩
  · rw [hsame.dealLog, hsame.deckIndex]
    exact h.indexes
  · rw [hsame.dealLog, hsame.dealSeed, hsame.clientSeed, hsame.nonce]
    exact h.cards
  · rw [hsame.dealerCards, hsame.dealtTo]
    exact h.dealer

/-- Every seat has the index and the cards of one that was there. -/
theorem HandsLogged.of_seats (h : HandsLogged t) (hsame : SameDeck t t')
    (hseats : ∀ s' ∈ t'.seats, ∃ s ∈ t.seats, s'.index = s.index ∧ s'.cards = s.cards) :
    HandsLogged t' := by
  refine ⟨hsame.serverSeed ▸ h.serverSeed, hsame.clientSeed ▸ h.clientSeed, ?_⟩
  intro s' hs'
  obtain ⟨s, hs, hindex, hcards⟩ := hseats s' hs'
  rw [hcards, hindex, hsame.dealtTo]
  exact h.hands s hs

theorem SameHands.seats (h : SameHands t t') :
    ∀ s' ∈ t'.seats, ∃ s ∈ t.seats, s'.index = s.index ∧ s'.cards = s.cards := by
  intro s' hs'
  have hmem : s'.handView ∈ t.seats.map Seat.handView := h.hands ▸ List.mem_map_of_mem hs'
  obtain ⟨s, hs, heq⟩ := List.mem_map.mp hmem
  exact ⟨s, hs, (congrArg HandView.index heq).symm, (congrArg HandView.cards heq).symm⟩

/-- The seats with a bet. -/
def Table.betting (t : Table) : List Nat := (t.seats.filter (·.bet.isSome)).map Seat.index

theorem dealOrder_eq (t : Table) : t.dealOrder = t.betting.mergeSort.map Recipient.seat ++ [.dealer] := by
  have hsorted : t.bettingSeats.map Seat.index = t.betting.mergeSort :=
    List.map_mergeSort fun _ _ _ _ => rfl
  rw [← hsorted, List.map_map]
  rfl

theorem dealOrder_congr (h : t'.betting = t.betting) : t'.dealOrder = t.dealOrder := by
  rw [dealOrder_eq, h, dealOrder_eq]

theorem betting_hands (t : Table) :
    t.betting = ((t.seats.map Seat.handView).filter HandView.betting).map HandView.index := by
  rw [List.filter_map, List.map_map]
  rfl

theorem betting_stakes (t : Table) :
    t.betting = (t.stakes.filter (·.bet.isSome)).map Stake.index := by
  rw [Table.stakes, List.filter_map, List.map_map]
  rfl

theorem Undealt.of_seats (h : Undealt t) (hsame : SameDeck t t')
    (hseats : ∀ s' ∈ t'.seats, ∃ s ∈ t.seats, s'.index = s.index ∧ s'.cards = s.cards) :
    Undealt t' where
  toHandsLogged := h.toHandsLogged.of_seats hsame hseats
  log := hsame.dealLog.trans h.log

theorem Dealt.of_same (h : Dealt t) (hsame : SameHands t t') (hclosed : t'.phase ≠ .betting) :
    Dealt t' where
  toHandsLogged := h.toHandsLogged.of_seats hsame.toSameDeck hsame.seats
  closed := hclosed
  order := by
    have hbetting : t'.betting = t.betting := by
      rw [betting_hands, hsame.hands, ← betting_hands]
    rw [hsame.dealLog, dealOrder_congr hbetting]
    exact h.order

/-- Fields other than the bet and the cards do not show. -/
theorem map_hands {f : Seat → Seat} (hf : ∀ s, (f s).handView = s.handView) :
    (t.seats.map f).map Seat.handView = t.seats.map Seat.handView := by
  rw [List.map_map]
  exact List.map_congr_left fun s _ => hf s

theorem setSeat_hands {index : Nat} {f : Seat → Seat} (hf : ∀ s, (f s).handView = s.handView) :
    SameHands t (t.setSeat index f) := by
  refine ⟨⟨rfl, rfl, rfl, rfl, rfl, rfl, rfl⟩, map_hands fun s => ?_⟩
  split
  · exact hf s
  · rfl

theorem TurnTo.sameHands {r : Table × Bool} (h : TurnTo t r) : SameHands t r.1 := by
  rcases h with ⟨_, -, -, rfl⟩ | rfl
  · exact ⟨⟨rfl, rfl, rfl, rfl, rfl, rfl, rfl⟩, rfl⟩
  · exact ⟨⟨rfl, rfl, rfl, rfl, rfl, rfl, rfl⟩, rfl⟩

/-- A turn that moves on from a table whose cards are dealt. -/
theorem Dealt.turned {r : Table × Bool} (h : Dealt t) (hturn : TurnTo t r) : Dealt r.1 := by
  refine h.of_same hturn.sameHands ?_
  rcases hturn with ⟨_, -, -, rfl⟩ | rfl
  · exact h.closed
  · exact nofun

end Frames

/-! ## Seats and bets -/

section Seats

variable {stream : CardStream} {chainEnabled : Bool} {t t' : Table} {seat : Seat} {bet : SeatBet}
variable {index : Nat} {userId : UserId} {f : Seat → Seat}

/-- A seat whose index no hand has was dealt nothing. -/
theorem Dealt.dealtTo_eq_nil (h : Dealt t) (hindex : index ∉ t.seats.map Seat.index) :
    t.dealtTo (.seat index) = [] := by
  rw [Table.dealtTo, List.map_eq_nil_iff, List.filter_eq_nil_iff]
  intro e he hto
  have hmem : Recipient.seat index ∈ t.dealOrder := by
    rw [← h.order, List.mem_eraseDups]
    exact List.mem_map.mpr ⟨e, he, by simpa using hto⟩
  rw [Table.dealOrder, List.mem_append, List.mem_map] at hmem
  rcases hmem with ⟨s, hs, heq⟩ | hdealer
  · cases heq
    exact hindex (List.mem_map_of_mem (mem_bettingSeats.mp hs).1)
  · cases List.mem_singleton.mp hdealer

theorem takeSeat_deck (t : Table) (seatIndex : Nat) (userId : UserId) :
    SameDeck t (takeSeat t seatIndex userId).1 ∧
      (takeSeat t seatIndex userId).1.phase = t.phase := by
  rcases takeSeat_cases t seatIndex userId with ⟨e, htake⟩ | ⟨-, htake⟩
  · rw [htake]
    exact ⟨.refl t, rfl⟩
  · rw [htake]
    exact ⟨⟨rfl, rfl, rfl, rfl, rfl, rfl, rfl⟩, rfl⟩

theorem Undealt.takeSeat (h : Undealt t) (seatIndex : Nat) (userId : UserId) :
    Undealt (takeSeat t seatIndex userId).1 := by
  rcases takeSeat_cases t seatIndex userId with ⟨e, htake⟩ | ⟨-, htake⟩
  · rw [htake]
    exact h
  · rw [htake]
    refine ⟨⟨h.serverSeed, h.clientSeed, ?_⟩, h.log⟩
    intro s hs
    have hnil : s.cards = [] := by
      rcases List.mem_append.mp hs with hs | hs
      · rw [h.hands s hs, Table.dealtTo, h.log]
        rfl
      · cases List.mem_singleton.mp hs
        rfl
    show s.cards = (t.dealLog.filter _).map _
    rw [hnil, h.log]
    rfl

theorem Dealt.takeSeat (h : Dealt t) (seatIndex : Nat) (userId : UserId) :
    Dealt (takeSeat t seatIndex userId).1 := by
  rcases takeSeat_cases t seatIndex userId with ⟨e, htake⟩ | ⟨hnew, htake⟩
  · rw [htake]
    exact h
  · rw [htake]
    refine ⟨⟨h.serverSeed, h.clientSeed, ?_⟩, h.closed, h.order.trans (dealOrder_congr ?_).symm⟩
    · intro s hs
      rcases List.mem_append.mp hs with hs | hs
      · exact h.hands s hs
      · cases List.mem_singleton.mp hs
        exact (h.dealtTo_eq_nil hnew).symm
    · show ((t.seats ++ [newSeat seatIndex userId]).filter _).map _ = t.betting
      simp [newSeat, Table.betting]

theorem deleteSeat_seats {s' : Seat} (hs' : s' ∈ (t.deleteSeat index).seats) :
    ∃ s ∈ t.seats, s'.index = s.index ∧ s'.cards = s.cards :=
  ⟨s', List.mem_of_mem_filter hs', rfl, rfl⟩

/-- A seat without a bet leaves no hand behind. -/
theorem Dealt.deleteSeat (h : Dealt t) (hdistinct : t.Distinct) (hseat : seat ∈ t.seats)
    (hbet : seat.bet = none) : Dealt (t.deleteSeat seat.index) where
  toHandsLogged := h.toHandsLogged.of_seats ⟨rfl, rfl, rfl, rfl, rfl, rfl, rfl⟩
    fun _ hs' => deleteSeat_seats hs'
  closed := h.closed
  order := by
    refine h.order.trans (dealOrder_congr ?_).symm
    have hbets : (t.seats.filter (·.index != seat.index)).filter (·.bet.isSome) =
        t.seats.filter (·.bet.isSome) := by
      rw [List.filter_filter]
      refine List.filter_congr fun s hs => ?_
      by_cases hindex : s.index = seat.index
      · rw [List.inj_on_of_nodup_map hdistinct hs hseat hindex, hbet]
        rfl
      · simp [hindex]
    exact congrArg (List.map Seat.index) hbets

theorem setSeat_seats (hf : ∀ s, (f s).index = s.index ∧ (f s).cards = s.cards) {s' : Seat}
    (hs' : s' ∈ (t.setSeat index f).seats) :
    ∃ s ∈ t.seats, s'.index = s.index ∧ s'.cards = s.cards := by
  obtain ⟨s, hs, rfl⟩ := List.mem_map.mp hs'
  refine ⟨s, hs, ?_⟩
  split
  · exact hf s
  · exact ⟨rfl, rfl⟩

/-- A bet that is taken leaves the hands and the deck. -/
theorem placed_deck : SameDeck t (t.placed chainEnabled bet seat) := by
  obtain ⟨_, heq⟩ := holdExposure_eq chainEnabled t.clearSettled (t.placingSeat seat) bet
  rw [Table.placed, heq]
  unfold Table.clearSettled
  split
  · exact ⟨rfl, rfl, rfl, rfl, rfl, rfl, rfl⟩
  · exact ⟨rfl, rfl, rfl, rfl, rfl, rfl, rfl⟩

theorem placed_seats (hsettled : t.phase ≠ .settled) {s' : Seat}
    (hs' : s' ∈ (t.placed chainEnabled bet seat).seats) :
    ∃ s ∈ t.seats, s'.index = s.index ∧ s'.cards = s.cards := by
  obtain ⟨_, heq⟩ := holdExposure_eq chainEnabled t.clearSettled (t.placingSeat seat) bet
  rw [Table.placed, heq, clearSettled_of_ne hsettled] at hs'
  obtain ⟨s, hs, hview⟩ := setSeat_seats (f := Seat.place bet) (fun _ => ⟨rfl, rfl⟩) hs'
  exact ⟨s, hs, hview⟩

theorem sitOut_seats {seats : List Seat} {s' : Seat} (hs' : s' ∈ sitOut seats) :
    ∃ s ∈ seats, s'.index = s.index ∧ s'.cards = s.cards := by
  obtain ⟨s, hs, hsome⟩ := List.mem_filterMap.mp hs'
  refine ⟨s, hs, ?_⟩
  split at hsome
  · cases hsome
    exact ⟨rfl, rfl⟩
  · split at hsome
    · cases hsome
    · cases hsome
      exact ⟨rfl, rfl⟩

/-! ## A round on the table -/

theorem Logged.install {roundDbId : RoundId} {seed : RoundSeed} {guard : Option ExposureGuard} :
    Logged stream (t.installRound roundDbId seed guard) where
  indexes := rfl
  cards _ he := absurd he List.not_mem_nil
  dealer := rfl

theorem Undealt.install {roundDbId : RoundId} {seed : RoundSeed} {guard : Option ExposureGuard} :
    Undealt (t.installRound roundDbId seed guard) where
  serverSeed := rfl
  clientSeed := rfl
  hands s' hs' := by
    obtain ⟨s, -, rfl⟩ := List.mem_map.mp hs'
    rfl
  log := rfl

/-- The seed may change as long as no card is dealt from it. -/
theorem Logged.foldEntropy (h : Logged stream t) (hlog : t.dealLog = []) (folded : Option String) :
    Logged stream (t.foldEntropy folded) := by
  cases folded with
  | none => exact h
  | some =>
    refine ⟨h.indexes, ?_, h.dealer⟩
    intro e he
    have hnone : e ∈ ([] : List DealLogEntry) := hlog ▸ he
    exact absurd hnone List.not_mem_nil

theorem Undealt.foldEntropy (h : Undealt t) (folded : Option String) :
    Undealt (t.foldEntropy folded) := by
  cases folded with
  | none => exact h
  | some => exact ⟨⟨h.serverSeed, h.clientSeed, h.hands⟩, h.log⟩

end Seats

/-! ## Draws -/

section Draws

variable {stream : CardStream} {t : Table} {recipient : Recipient}

theorem logDraw_dealtTo (t : Table) (recipient hand : Recipient) (card : Card) :
    (t.logDraw recipient card).dealtTo hand =
      t.dealtTo hand ++ if recipient = hand then [card] else [] := by
  unfold Table.dealtTo Table.logDraw
  by_cases h : recipient = hand
  · simp [h]
  · simp [h]

/-- A draw goes on with the deck where the log ends. -/
theorem Logged.draw (h : Logged stream t) {dealerCards : List Card}
    (hdealer : dealerCards = (t.logDraw recipient (t.nextCard stream)).dealtTo .dealer) :
    Logged stream { t.logDraw recipient (t.nextCard stream) with dealerCards := dealerCards } where
  indexes := by
    show (t.dealLog ++ [_]).map _ = List.range (t.deckIndex + 1)
    rw [List.map_append, h.indexes, List.range_succ]
    rfl
  cards e he := by
    rcases List.mem_append.mp he with he | he
    · exact h.cards e he
    · cases List.mem_singleton.mp he
      rfl
  dealer := hdealer

theorem Logged.drawSeat (h : Logged stream t) (index : Nat) :
    Logged stream (t.logDraw (.seat index) (t.nextCard stream)) := by
  refine h.draw ?_
  rw [logDraw_dealtTo, if_neg nofun, List.append_nil]
  exact h.dealer

theorem Logged.drawDealer (h : Logged stream t) : Logged stream (t.dealTo stream .dealer) := by
  refine h.draw ?_
  rw [logDraw_dealtTo, if_pos rfl, h.dealer]

theorem Logged.dealTo (h : Logged stream t) (recipient : Recipient) :
    Logged stream (t.dealTo stream recipient) := by
  cases recipient with
  | dealer => exact h.drawDealer
  | seat index => exact (h.drawSeat index).of_same ⟨rfl, rfl, rfl, rfl, rfl, rfl, rfl⟩

/-- The card goes to the seat the log names. -/
theorem HandsLogged.drawSeat (h : HandsLogged t) {index : Nat} {card : Card} {f : Seat → Seat}
    (hf : ∀ s, (f s).index = s.index ∧ (f s).cards = s.cards ++ [card]) :
    HandsLogged ((t.logDraw (.seat index) card).setSeat index f) := by
  refine ⟨h.serverSeed, h.clientSeed, ?_⟩
  intro s' hs'
  obtain ⟨s, hs, rfl⟩ := List.mem_map.mp hs'
  have hcards := h.hands s hs
  show _ = (t.logDraw (.seat index) card).dealtTo _
  rw [logDraw_dealtTo]
  by_cases hindex : s.index = index
  · simp only [hf, hindex, if_true]
    rw [hcards, hindex]
  · have hne : Recipient.seat index ≠ .seat s.index := fun heq => by
      cases heq
      exact hindex rfl
    simp only [if_neg hindex, if_neg hne, List.append_nil]
    exact hcards

theorem HandsLogged.drawDealer (h : HandsLogged t) : HandsLogged (t.dealTo stream .dealer) := by
  refine ⟨h.serverSeed, h.clientSeed, ?_⟩
  intro s hs
  show _ = (t.logDraw .dealer (t.nextCard stream)).dealtTo _
  rw [logDraw_dealtTo, if_neg nofun, List.append_nil]
  exact h.hands s hs

theorem HandsLogged.dealTo (h : HandsLogged t) (recipient : Recipient) :
    HandsLogged (t.dealTo stream recipient) := by
  cases recipient with
  | dealer => exact h.drawDealer
  | seat => exact h.drawSeat fun _ => ⟨rfl, rfl⟩

theorem dealTo_log (t : Table) (recipient : Recipient) :
    (t.dealTo stream recipient).dealLog.map (·.dealtTo) =
      t.dealLog.map (·.dealtTo) ++ [recipient] := by
  cases recipient with
  | dealer => simp [Table.dealTo, Table.logDraw]
  | seat => simp [Table.dealTo, Table.logDraw, Table.setSeat]

/-- What a pass over recipients leaves: its log, and the hands it says. -/
theorem foldl_dealTo_hands (sequence : List Recipient) (hlogged : Logged stream t)
    (hhands : HandsLogged t) :
    Logged stream (sequence.foldl (Table.dealTo stream) t) ∧
      HandsLogged (sequence.foldl (Table.dealTo stream) t) ∧
      (sequence.foldl (Table.dealTo stream) t).dealLog.map (·.dealtTo) =
        t.dealLog.map (·.dealtTo) ++ sequence := by
  induction sequence generalizing t with
  | nil => exact ⟨hlogged, hhands, (List.append_nil _).symm⟩
  | cons recipient rest ih =>
    obtain ⟨hlogged', hhands', hlog⟩ := ih (hlogged.dealTo recipient) (hhands.dealTo recipient)
    refine ⟨hlogged', hhands', ?_⟩
    rw [List.foldl_cons, hlog, dealTo_log, List.append_assoc, List.singleton_append]

theorem dealOrder_nodup (h : t.Distinct) : t.dealOrder.Nodup := by
  have hsub : t.betting.mergeSort.Nodup :=
    (List.mergeSort_perm _ _).nodup_iff.mpr (h.sublist (List.filter_sublist.map _))
  rw [dealOrder_eq, List.nodup_append]
  refine ⟨hsub.map fun _ _ => Recipient.seat.inj, List.nodup_singleton _, ?_⟩
  intro a ha b hb heq
  obtain ⟨_, -, rfl⟩ := List.mem_map.mp ha
  cases List.mem_singleton.mp hb
  cases heq

theorem resolveSides_handView (dealerUp : Card) (s : Seat) : (s.resolveSides dealerUp).handView = s.handView := by
  unfold Seat.resolveSides
  split
  · rfl
  · rfl

theorem dealCards_hands : SameHands (t.dealSequence.foldl (Table.dealTo stream) t)
    (dealCards stream t) := by
  unfold dealCards
  dsimp only
  split
  · exact .refl _
  · exact ⟨⟨rfl, rfl, rfl, rfl, rfl, rfl, rfl⟩, map_hands (resolveSides_handView _)⟩

/-- The deal: two passes over the hands, in the order they stay in. -/
theorem Undealt.dealCards (h : Undealt t) (hlogged : Logged stream t) (hdistinct : t.Distinct)
    (hclosed : t.phase ≠ .betting) :
    Logged stream (Blackjack.dealCards stream t) ∧ Dealt (Blackjack.dealCards stream t) := by
  obtain ⟨hlogged', hhands, hlog⟩ :=
    foldl_dealTo_hands t.dealSequence hlogged h.toHandsLogged
  have hsame : SameButHands t (t.dealSequence.foldl (Table.dealTo stream) t) :=
    foldl_dealTo_same t.dealSequence t
  have hdealt : Dealt (t.dealSequence.foldl (Table.dealTo stream) t) := by
    refine ⟨hhands, ?_, ?_⟩
    · rw [hsame.phase]
      exact hclosed
    · have hbetting : (t.dealSequence.foldl (Table.dealTo stream) t).betting = t.betting := by
        rw [betting_stakes, hsame.stakes, ← betting_stakes]
      have hpass : t.dealSequence.eraseDups = t.dealOrder := by
        show (t.dealOrder ++ t.dealOrder).eraseDups = t.dealOrder
        rw [eraseDups_append_of_mem fun _ hk => hk, eraseDups_of_nodup (dealOrder_nodup hdistinct)]
      rw [hlog, h.log, List.map_nil, List.nil_append, hpass, dealOrder_congr hbetting]
  refine ⟨hlogged'.of_same dealCards_hands.toSameDeck, hdealt.of_same dealCards_hands ?_⟩
  rw [dealCards_same.phase]
  exact hclosed

theorem dealCards_seeds (stream : CardStream) (t : Table) :
    (dealCards stream t).dealSeed = t.dealSeed ∧ (dealCards stream t).serverSeed = t.serverSeed := by
  have hdealt : ∀ (sequence : List Recipient) (t : Table),
      (sequence.foldl (Table.dealTo stream) t).dealSeed = t.dealSeed ∧
        (sequence.foldl (Table.dealTo stream) t).serverSeed = t.serverSeed := by
    intro sequence
    induction sequence with
    | nil => exact fun _ => ⟨rfl, rfl⟩
    | cons recipient rest ih =>
      intro t
      obtain ⟨hdeal, hserver⟩ := ih (t.dealTo stream recipient)
      cases recipient with
      | seat | dealer => exact ⟨hdeal, hserver⟩
  have hsame : SameHands _ (dealCards stream t) := dealCards_hands
  rw [hsame.dealSeed, hsame.serverSeed]
  exact hdealt _ t

/-- An action of the seat whose turn it is: a card for its own hand, or
none. -/
theorem Dealt.acted (h : Dealt t) (hlogged : Logged stream t) (a : Action) {seat : Seat}
    (hseat : seat ∈ t.seats) (hbet : seat.bet.isSome = true) :
    Logged stream (t.acted stream a seat) ∧ Dealt (t.acted stream a seat) := by
  unfold Table.acted
  by_cases ha : a = .stand
  · subst ha
    rw [if_pos rfl]
    have hsame : SameHands t (t.setSeat seat.index fun s => s.act .stand (t.nextCard stream)) :=
      setSeat_hands fun _ => rfl
    exact ⟨hlogged.of_same hsame.toSameDeck, h.of_same hsame h.closed⟩
  · rw [if_neg ha]
    have hact : ∀ s : Seat, (s.act a (t.nextCard stream)).index = s.index ∧
        (s.act a (t.nextCard stream)).cards = s.cards ++ [t.nextCard stream] ∧
        (s.act a (t.nextCard stream)).bet.isSome = s.bet.isSome := by
      intro s
      cases a with
      | hit => exact ⟨rfl, rfl, rfl⟩
      | stand => exact absurd rfl ha
      | double => exact ⟨rfl, rfl, Option.isSome_map⟩
    refine ⟨(hlogged.drawSeat seat.index).of_same ⟨rfl, rfl, rfl, rfl, rfl, rfl, rfl⟩,
      h.toHandsLogged.drawSeat fun s => ⟨(hact s).1, (hact s).2.1⟩, h.closed, ?_⟩
    have hknown : ∀ k ∈ [Recipient.seat seat.index], k ∈ t.dealLog.map (·.dealtTo) := by
      intro k hk
      cases List.mem_singleton.mp hk
      rw [← List.mem_eraseDups, h.order]
      exact List.mem_append_left _
        (List.mem_map.mpr ⟨seat, mem_bettingSeats.mpr ⟨hseat, hbet⟩, rfl⟩)
    show ((t.dealLog ++ [_]).map _).eraseDups = _
    rw [List.map_append, List.map_singleton, eraseDups_append_of_mem hknown, h.order]
    refine (dealOrder_congr ?_).symm
    show ((t.seats.map fun s => if s.index = seat.index then s.act a (t.nextCard stream) else s).filter
      _).map _ = t.betting
    rw [List.filter_map, List.map_map, Table.betting]
    have hfilter : t.seats.filter ((·.bet.isSome) ∘ fun s =>
        if s.index = seat.index then s.act a (t.nextCard stream) else s) =
        t.seats.filter (·.bet.isSome) := by
      refine List.filter_congr fun s _ => ?_
      by_cases hindex : s.index = seat.index
      · simp [hindex, (hact s).2.2]
      · simp [hindex]
    rw [hfilter]
    refine List.map_congr_left fun s _ => ?_
    by_cases hindex : s.index = seat.index
    · simp [hindex, (hact s).1]
    · simp [hindex]

theorem Dealt.drawDealer (h : Dealt t) : Dealt (t.dealTo stream .dealer) where
  toHandsLogged := h.toHandsLogged.drawDealer
  closed := h.closed
  order := by
    have hknown : ∀ k ∈ [Recipient.dealer], k ∈ t.dealLog.map (·.dealtTo) := by
      intro k hk
      cases List.mem_singleton.mp hk
      rw [← List.mem_eraseDups, h.order]
      exact List.mem_append_right _ (List.mem_singleton_self _)
    rw [dealTo_log, eraseDups_append_of_mem hknown, h.order]
    rfl

end Draws

/-! ## Dealing the round again -/

/-- `BlackjackEngine.seatHandId` -/
def seatHandId (seatIndex hand : Nat) : String := s!"seat-{seatIndex}-{hand}"

def Recipient.dealtTo : Recipient → DealtTo
  | .seat index => .seat index
  | .dealer => .dealer

/-- Every seat has the one hand. -/
def Recipient.handId : Recipient → String
  | .seat index => seatHandId index 0
  | .dealer => "dealer"

/-- An entry as `stateJson` shows it. -/
def DealLogEntry.json (e : DealLogEntry) : Fair.DealLogEntry where
  deckIndex := e.deckIndex
  dealtTo := e.dealtTo.dealtTo
  handId := e.dealtTo.handId
  card := some e.card

/-- The hands of a round: those of the seats with a bet, then the dealer's. -/
def Table.hands (t : Table) : List ReproducedHand :=
  t.bettingSeats.map (fun s => ⟨.seat s.index, seatHandId s.index 0, s.cards⟩) ++
    [⟨.dealer, "dealer", t.dealerCards⟩]

section Replay

variable {sha : Sha} {t : Table}

def Recipient.key (r : Recipient) : HandKey := ⟨r.dealtTo, r.handId⟩

theorem Recipient.key_injective : Function.Injective Recipient.key := by
  intro r r' h
  have hto : r.dealtTo = r'.dealtTo := congrArg HandKey.dealtTo h
  cases r with
  | seat =>
    cases r' with
    | seat => exact congrArg _ (DealtTo.seat.inj hto)
    | dealer => cases hto
  | dealer =>
    cases r' with
    | seat => cases hto
    | dealer => rfl

/-- The log of a dealt table, dealt again from the seed of its deck, gives the
hands on it. -/
theorem Dealt.reproduceRound (h : Dealt t) (hlogged : Logged (blackjackDeal sha) t) :
    reproduceRound sha (t.dealSeed.getD "") (t.clientSeed.getD "") t.nonce
      (t.dealLog.map DealLogEntry.json) = t.hands := by
  have hindexes : (t.dealLog.map DealLogEntry.json).map (·.deckIndex) = List.range t.deckIndex := by
    rw [List.map_map]
    exact hlogged.indexes
  have hkeys : (t.dealLog.map DealLogEntry.json).map Fair.DealLogEntry.key =
      (t.dealLog.map (·.dealtTo)).map Recipient.key := by
    rw [List.map_map, List.map_map]
    rfl
  have hcards : ∀ r : Recipient, ((t.dealLog.map DealLogEntry.json).filter (·.key = r.key)).map
      (fun e => blackjackDeal sha (t.dealSeed.getD "") (t.clientSeed.getD "") t.nonce e.deckIndex) =
      t.dealtTo r := by
    intro r
    have hfilter : t.dealLog.filter ((fun e => decide (e.key = r.key)) ∘ DealLogEntry.json) =
        t.dealLog.filter (·.dealtTo = r) := by
      refine List.filter_congr fun e _ => ?_
      exact decide_eq_decide.mpr Recipient.key_injective.eq_iff
    rw [List.filter_map, hfilter, List.map_map, Table.dealtTo]
    exact List.map_congr_left fun e he => (hlogged.cards e (List.mem_of_mem_filter he)).symm
  rw [reproduceRound_eq hindexes, hkeys, eraseDups_map Recipient.key_injective, h.order,
    Table.dealOrder, Table.hands]
  simp only [List.map_map, List.map_append, List.map_singleton, Function.comp_def, hcards]
  rw [← hlogged.dealer]
  congr 1
  refine List.map_congr_left fun s hs => ?_
  rw [h.hands s (mem_bettingSeats.mp hs).1]
  rfl

end Replay

end Scadium.Games.Blackjack
