/-
Scadium.Fair.Blackjack — cards and hands (`packages/fair/src/blackjack.ts`).

`blackjackDeal` is the infinite-deck dealer: the card at a deck index is one
digest of the seeds and the index. Everything else is a function of the cards
dealt, the two side bets included. `reproduceRound` is the verifier's side: it
deals a round again from its seeds and its deal order.

The second part is about the total of a hand. `handValue` counts every ace 11
and lowers one after the other while the hand busts. A hand can be counted in
as many ways as its aces allow; what a way comes to depends only on the number
of aces that are high, so the loop passes all the totals there are, from the
greatest down, and what it returns is the best way to count the hand.
-/
import Mathlib.Data.List.Sort
import Scadium.Fair.Hash
import Scadium.Lib.GroupBy

namespace Scadium.Fair

open Scadium.Lib (groupBy groupBy_collect)

inductive Suit where
  | H | D | C | S
  deriving DecidableEq

inductive Rank where
  | A | two | three | four | five | six | seven | eight | nine | ten | J | Q | K
  deriving DecidableEq

structure Card where
  rank : Rank
  suit : Suit
  deriving DecidableEq

def RANKS : List Rank :=
  [.A, .two, .three, .four, .five, .six, .seven, .eight, .nine, .ten, .J, .Q, .K]

def SUITS : List Suit := [.H, .D, .C, .S]

/-- The first 16 bits of the digest, mod 52. -/
def cardNumber (digest : Prisma.Bytes32) : Nat := digest.toNat / 2 ^ 240 % 52

/-- The card of `blackjackDeal` at a deck index. -/
def blackjackDeal (sha : Sha) (serverSeed clientSeed : String) (nonce i : Nat) : Card :=
  let n := cardNumber (hmacSha256 sha serverSeed s!"{buildMessage clientSeed nonce}:{i}")
  { rank := RANKS.getD (n % 13) .A
    suit := SUITS.getD (n / 13) .H }

/-! ## Hands -/

/-- An ace counts 11 here; `handValue` takes 10 off where it must. -/
def cardValue (c : Card) : Nat :=
  match c.rank with
  | .A => 11
  | .two => 2
  | .three => 3
  | .four => 4
  | .five => 5
  | .six => 6
  | .seven => 7
  | .eight => 8
  | .nine => 9
  | .ten | .J | .Q | .K => 10

structure HandValue where
  total : Nat
  soft : Bool
  deriving DecidableEq

/-- The loop of `handValue`: aces go from 11 to 1 while the hand busts. -/
def downgradeAces : (aces total : Nat) → HandValue
  | 0, total => ⟨total, false⟩
  | aces + 1, total => if 21 < total then downgradeAces aces (total - 10) else ⟨total, true⟩

def handValue (cards : List Card) : HandValue :=
  downgradeAces (cards.countP (·.rank = .A)) (cards.map cardValue).sum

def isBlackjack (cards : List Card) : Bool := cards.length == 2 && (handValue cards).total == 21

def isBust (cards : List Card) : Bool := decide (21 < (handValue cards).total)

/-! ## Side bets -/

inductive TwentyOnePlusThreeOutcome where
  | suited_trips | straight_flush | three_of_a_kind | straight | flush | none
  deriving DecidableEq

inductive PerfectPairsOutcome where
  | perfect | colored | mixed | none
  deriving DecidableEq

/-- `STRAIGHT_ORDER.indexOf(rank)` -/
def Rank.index (rank : Rank) : Nat := RANKS.idxOf rank

/-- Three ranks in a row, with the ace low or high. -/
def isStraightTriple (cards : List Card) : Bool :=
  match (cards.map (·.rank.index)).mergeSort with
  | [a, b, c] => a ≠ b && b ≠ c && ((c == a + 2 && b == a + 1) || (a == 0 && b == 11 && c == 12))
  | _ => false

/-- The player's two cards and the dealer's up-card as a three-card hand. -/
def evaluate21Plus3 (p1 p2 dealerUp : Card) : TwentyOnePlusThreeOutcome :=
  let cards := [p1, p2, dealerUp]
  let sameSuit := cards.all (·.suit = p1.suit)
  let sameRank := cards.all (·.rank = p1.rank)
  let straight := isStraightTriple cards
  if sameRank && sameSuit then .suited_trips
  else if straight && sameSuit then .straight_flush
  else if sameRank then .three_of_a_kind
  else if straight then .straight
  else if sameSuit then .flush
  else .none

/-- `RED_SUITS.includes(suit)` -/
def Suit.isRed (suit : Suit) : Bool := suit == .H || suit == .D

/-- A pair in the player's two cards. -/
def evaluatePerfectPairs (p1 p2 : Card) : PerfectPairsOutcome :=
  if p1.rank ≠ p2.rank then .none
  else if p1.suit = p2.suit then .perfect
  else if p1.suit.isRed = p2.suit.isRed then .colored
  else .mixed

/-! ## The verifier -/

/-- `number | 'dealer'` -/
inductive DealtTo where
  | seat (index : Nat)
  | dealer
  deriving DecidableEq

/-- One card draw in the public deal order of a round. -/
structure DealLogEntry where
  deckIndex : Nat
  dealtTo : DealtTo
  handId : String
  card : Option Card
  deriving DecidableEq

structure ReproducedHand where
  dealtTo : DealtTo
  handId : String
  cards : List Card
  deriving DecidableEq

/-- `${dealtTo}|${handId}`, the key of a hand. -/
structure HandKey where
  dealtTo : DealtTo
  handId : String
  deriving DecidableEq

def DealLogEntry.key (e : DealLogEntry) : HandKey := ⟨e.dealtTo, e.handId⟩

/-- `reproduceRound`: the stream as far as the log goes, its cards collected
by hand in deck order. -/
def reproduceRound (sha : Sha) (serverSeed clientSeed : String) (nonce : Nat)
    (dealOrder : List DealLogEntry) : List ReproducedHand :=
  if dealOrder.isEmpty then []
  else
    let maxIndex := dealOrder.foldl (fun m e => max m e.deckIndex) 0
    let stream := (List.range (maxIndex + 1)).map (blackjackDeal sha serverSeed clientSeed nonce)
    let sorted := dealOrder.mergeSort fun a b => decide (a.deckIndex ≤ b.deckIndex)
    let hands := groupBy DealLogEntry.key
      (fun cards e => cards.getD [] ++ stream[e.deckIndex]?.toList) sorted
    hands.map fun hand => ⟨hand.1.dealtTo, hand.1.handId, hand.2⟩

section Verifier

variable {sha : Sha} {serverSeed clientSeed : String} {nonce : Nat} {dealOrder : List DealLogEntry}

theorem le_maxIndex {e : DealLogEntry} : ∀ (dealOrder : List DealLogEntry) (m : Nat),
    e ∈ dealOrder ∨ e.deckIndex ≤ m → e.deckIndex ≤ dealOrder.foldl (fun m e => max m e.deckIndex) m
  | [], m, h => by simpa using h
  | d :: rest, m, h => by
      refine le_maxIndex rest (max m d.deckIndex) ?_
      rcases h with hmem | hle
      · rcases List.mem_cons.mp hmem with rfl | hmem
        · exact .inr (le_max_right _ _)
        · exact .inl hmem
      · exact .inr (hle.trans (le_max_left _ _))

/-- A log whose entries come in deck order is read as it stands: the hands in
the order they come up, each with the cards of the stream at its entries. -/
theorem reproduceRound_eq {n : Nat} (h : dealOrder.map (·.deckIndex) = List.range n) :
    reproduceRound sha serverSeed clientSeed nonce dealOrder =
      (dealOrder.map DealLogEntry.key).eraseDups.map fun k => ⟨k.dealtTo, k.handId,
        (dealOrder.filter (·.key = k)).map
          fun e => blackjackDeal sha serverSeed clientSeed nonce e.deckIndex⟩ := by
  have hsorted : dealOrder.Pairwise fun a b => decide (a.deckIndex ≤ b.deckIndex) = true := by
    have hrange : (dealOrder.map (·.deckIndex)).Pairwise (· ≤ ·) := by
      rw [h]
      exact List.pairwise_le_range
    simpa [List.pairwise_map] using hrange
  cases dealOrder with
  | nil => rfl
  | cons d rest =>
    simp only [reproduceRound, List.isEmpty_cons, Bool.false_eq_true, if_false,
      List.mergeSort_of_pairwise hsorted, groupBy_collect, List.map_map]
    refine List.map_congr_left fun k _ => ?_
    have hcard : ∀ e ∈ (d :: rest).filter (·.key = k),
        (((List.range ((d :: rest).foldl (fun m e => max m e.deckIndex) 0 + 1)).map
          (blackjackDeal sha serverSeed clientSeed nonce))[e.deckIndex]?).toList =
        [blackjackDeal sha serverSeed clientSeed nonce e.deckIndex] := by
      intro e he
      have hle := le_maxIndex (d :: rest) 0 (.inl (List.mem_of_mem_filter he))
      have hlt : e.deckIndex < (d :: rest).foldl (fun m e => max m e.deckIndex) 0 + 1 := by omega
      simp only [List.getElem?_map, List.getElem?_range hlt, Option.map_some, Option.toList_some]
    simp only [Function.comp, List.flatMap_congr hcard]
    rw [List.map_eq_flatMap]

end Verifier

/-! ## Ways to count a hand -/

def Card.isAce (c : Card) : Bool := c.rank = .A

/-- An ace counts 1 or 11, any other card what it is worth. -/
def Card.Counts (c : Card) (value : Nat) : Prop :=
  if c.isAce then value = 1 ∨ value = 11 else value = cardValue c

/-- A card with what it counts. -/
structure CountedCard where
  card : Card
  value : Nat
  counts : card.Counts value

/-- An ace that counts 11. -/
def CountedCard.isHigh (c : CountedCard) : Bool := c.card.isAce && c.value == 11

/-- A way to count a hand. -/
structure HandCount (cards : List Card) where
  counted : List CountedCard
  ofHand : counted.map CountedCard.card = cards

def HandCount.total {cards : List Card} (w : HandCount cards) : Nat :=
  (w.counted.map CountedCard.value).sum

/-- An ace counts 11. -/
def HandCount.Soft {cards : List Card} (w : HandCount cards) : Prop :=
  ∃ c ∈ w.counted, c.isHigh = true

/-- A card that counts as little as it can. -/
def Card.low (c : Card) : CountedCard where
  card := c
  value := if c.isAce then 1 else cardValue c
  counts := by
    unfold Card.Counts
    split
    · exact .inl rfl
    · rfl

/-- All aces are low. -/
def HandCount.low (cards : List Card) : HandCount cards where
  counted := cards.map Card.low
  ofHand := by
    rw [List.map_map]
    exact List.map_id cards

/-! ## Totals -/

/-- The total with all aces low. -/
def lowTotal (cards : List Card) : Nat := (cards.map fun c => c.low.value).sum

def aces (cards : List Card) : Nat := cards.countP Card.isAce

theorem cardValue_eq (c : Card) : cardValue c = c.low.value + if c.isAce then 10 else 0 := by
  unfold Card.low
  split
  · rename_i hace
    have hrank : c.rank = .A := of_decide_eq_true hace
    simp [cardValue, hrank]
  · rfl

theorem value_eq (c : CountedCard) : c.value = c.card.low.value + if c.isHigh then 10 else 0 := by
  have hcounts := c.counts
  unfold Card.Counts at hcounts
  unfold Card.low CountedCard.isHigh
  split at hcounts
  · rename_i hace
    rcases hcounts with hone | heleven
    · simp [hace, hone]
    · simp [hace, heleven]
  · rename_i hace
    simp [hace, hcounts]

/-- A way to count comes to ten more than the low total for each high ace. -/
theorem sum_value (l : List CountedCard) : (l.map CountedCard.value).sum =
    lowTotal (l.map CountedCard.card) + 10 * l.countP CountedCard.isHigh := by
  unfold lowTotal
  induction l with
  | nil => rfl
  | cons c l ih =>
    rw [List.map_cons, List.sum_cons, ih, value_eq]
    simp only [List.map_cons, List.sum_cons, List.countP_cons]
    split
    · omega
    · omega

theorem high_le_aces (l : List CountedCard) :
    l.countP CountedCard.isHigh ≤ aces (l.map CountedCard.card) := by
  unfold aces
  rw [List.countP_map]
  refine List.countP_mono_left fun c _ hhigh => ?_
  exact (Bool.and_eq_true_iff.mp hhigh).1

/-- Any number of the aces may be high. -/
theorem exists_high {cards : List Card} {k : Nat} (hk : k ≤ aces cards) :
    ∃ l : List CountedCard, l.map CountedCard.card = cards ∧ l.countP CountedCard.isHigh = k := by
  induction cards generalizing k with
  | nil =>
    have hzero : k = 0 := Nat.le_zero.mp hk
    exact ⟨[], rfl, hzero.symm⟩
  | cons c cards ih =>
    have hlow : c.low.isHigh = false := by
      show (c.isAce && (if c.isAce then 1 else cardValue c) == 11) = false
      cases c.isAce with
      | true => rfl
      | false => rfl
    by_cases hfew : k ≤ aces cards
    · obtain ⟨l, hl, hhigh⟩ := ih hfew
      exact ⟨c.low :: l, by rw [List.map_cons, hl]; rfl, by rw [List.countP_cons, hhigh]; simp [hlow]⟩
    · -- all of them are, and the first card is one
      unfold aces at hk hfew
      rw [List.countP_cons] at hk
      have hace : c.isAce = true := by
        by_contra hnot
        rw [if_neg hnot] at hk
        omega
      rw [if_pos hace] at hk
      obtain ⟨l, hl, hhigh⟩ := ih (k := k - 1) (by unfold aces; omega)
      refine ⟨⟨c, 11, by simp [Card.Counts, hace]⟩ :: l, ?_, ?_⟩
      · rw [List.map_cons, hl]
      · rw [List.countP_cons, hhigh, if_pos (by simp [CountedCard.isHigh, hace])]
        omega

variable {cards : List Card}

theorem HandCount.total_eq (w : HandCount cards) :
    w.total = lowTotal cards + 10 * w.counted.countP CountedCard.isHigh ∧
      w.counted.countP CountedCard.isHigh ≤ aces cards := by
  have hsum := sum_value w.counted
  have hle := high_le_aces w.counted
  rw [w.ofHand] at hsum hle
  exact ⟨hsum, hle⟩

theorem HandCount.soft_iff (w : HandCount cards) :
    w.Soft ↔ 0 < w.counted.countP CountedCard.isHigh := List.countP_pos_iff.symm

theorem HandCount.low_total (cards : List Card) : (HandCount.low cards).total = lowTotal cards := by
  unfold HandCount.total HandCount.low lowTotal
  rw [List.map_map]
  rfl

/-! ## The loop -/

/-- From `k` high aces the loop goes down to the first total that does not
bust, or to none. -/
theorem downgradeAces_eq (low k : Nat) : ∃ j ≤ k, downgradeAces k (low + 10 * k) =
      ⟨low + 10 * j, decide (0 < j)⟩ ∧ (0 < j → low + 10 * j ≤ 21) ∧
      (j < k → 21 < low + 10 * (j + 1)) := by
  induction k with
  | zero => exact ⟨0, le_rfl, rfl, nofun, nofun⟩
  | succ k ih =>
    unfold downgradeAces
    split
    · rename_i hbust
      obtain ⟨j, hj, heq, hfits, hnext⟩ := ih
      refine ⟨j, Nat.le_succ_of_le hj, ?_, hfits, fun _ => ?_⟩
      · rw [← heq]
        congr 1
      · rcases Nat.lt_or_ge j k with hlt | hge
        · exact hnext hlt
        · obtain rfl : j = k := Nat.le_antisymm hj hge
          exact hbust
    · rename_i hfits
      exact ⟨k + 1, le_rfl, by simp, fun _ => Nat.not_lt.mp hfits, fun hlt => absurd hlt (lt_irrefl _)⟩

theorem sum_cardValue (cards : List Card) :
    (cards.map cardValue).sum = lowTotal cards + 10 * aces cards := by
  unfold lowTotal aces
  induction cards with
  | nil => rfl
  | cons c cards ih =>
    rw [List.map_cons, List.sum_cons, ih, cardValue_eq]
    simp only [List.map_cons, List.sum_cons, List.countP_cons]
    split
    · omega
    · omega

theorem handValue_eq (cards : List Card) : ∃ j ≤ aces cards,
    handValue cards = ⟨lowTotal cards + 10 * j, decide (0 < j)⟩ ∧
      (0 < j → lowTotal cards + 10 * j ≤ 21) ∧
      (j < aces cards → 21 < lowTotal cards + 10 * (j + 1)) := by
  have haces : cards.countP (·.rank = .A) = aces cards := rfl
  unfold handValue
  rw [haces, sum_cardValue]
  exact downgradeAces_eq (lowTotal cards) (aces cards)

/-- The total of a hand is that of a way to count it: the greatest that does
not bust, or with all aces low if all bust. It is soft exactly if an ace
counts 11 in it. -/
theorem handValue_best (cards : List Card) :
    (∃ w : HandCount cards, w.total = (handValue cards).total) ∧
    ((∃ w : HandCount cards, w.total ≤ 21) → (handValue cards).total ≤ 21 ∧
      ∀ w : HandCount cards, w.total ≤ 21 → w.total ≤ (handValue cards).total) ∧
    ((∀ w : HandCount cards, 21 < w.total) →
      (handValue cards).total = (HandCount.low cards).total) ∧
    ∀ w : HandCount cards, w.total = (handValue cards).total →
      ((handValue cards).soft = true ↔ w.Soft) := by
  obtain ⟨j, hj, heq, hfits, hnext⟩ := handValue_eq cards
  rw [heq]
  refine ⟨?_, ?_, ?_, ?_⟩
  · obtain ⟨l, hl, hhigh⟩ := exists_high hj
    refine ⟨⟨l, hl⟩, ?_⟩
    rw [(HandCount.total_eq ⟨l, hl⟩).1]
    exact congrArg (lowTotal cards + 10 * ·) hhigh
  · rintro ⟨w, hw⟩
    have hlow := w.total_eq
    refine ⟨?_, fun w' hw' => ?_⟩
    · show lowTotal cards + 10 * j ≤ 21
      rcases Nat.eq_zero_or_pos j with hzero | hpos
      · omega
      · exact hfits hpos
    · have htotal := w'.total_eq
      show w'.total ≤ lowTotal cards + 10 * j
      -- one more high ace would bust
      by_contra hmore
      have hlater := hnext (by omega)
      omega
  · intro hbust
    have hlow := hbust (HandCount.low cards)
    rw [HandCount.low_total] at hlow ⊢
    show lowTotal cards + 10 * j = lowTotal cards
    rcases Nat.eq_zero_or_pos j with hzero | hpos
    · omega
    · have hle := hfits hpos
      omega
  · intro w hw
    have htotal := w.total_eq
    have hsame : w.total = lowTotal cards + 10 * j := hw
    rw [w.soft_iff]
    have hhigh : w.counted.countP CountedCard.isHigh = j := by omega
    rw [hhigh]
    exact decide_eq_true_iff

/-- Two aces and a nine: one of the aces is high. -/
example : handValue [⟨.A, .H⟩, ⟨.A, .S⟩, ⟨.nine, .D⟩] = ⟨21, true⟩ := by decide

end Scadium.Fair
