/-
Scadium.Fair.Jackpot — the pot raffle of `packages/fair/src/jackpot.ts`, and
the weighted draw of `engine-draw.ts`.

A ticket is a digest reduced modulo the pot. The entries' amounts, laid end
to end, partition the pot (`Lib.rangesFrom`), and the entry whose range
holds the ticket wins. Amounts and tickets are non-negative `bigint`s.

The draw of a block's big reward walks the same ranges by their sums, and
finds the same entry.
-/
import Mathlib.Algebra.Order.Group.Nat
import Mathlib.Order.Interval.Finset.Nat
import Scadium.Fair.Hash
import Scadium.Lib.Weights
import Scadium.Shared.VaultMath

namespace Scadium.Fair

open Scadium.Prisma (Bytes32)
open Scadium.Lib

/-- The full 256-bit digest, read as a number. -/
def jackpotRoll (sha : Sha) (serverSeed clientSeed : String) (nonce : Nat) : Nat :=
  (hmacSha256 sha serverSeed (buildMessage clientSeed nonce)).toNat

/-- Winning lamport index, from the seed pair alone. -/
def jackpotWinningTicket (sha : Sha) (serverSeed clientSeed : String) (nonce totalLamports : Nat) :
    Nat :=
  if totalLamports ≤ 0 then 0 else jackpotRoll sha serverSeed clientSeed nonce % totalLamports

/-- Winning lamport index when the round folds in a beacon value. -/
def jackpotTicketFromEntropy (sha : Sha) (serverSeed clientSeed : String) (entropy32 : Bytes32)
    (nonce totalLamports : Nat) : Nat :=
  if totalLamports ≤ 0 then 0
  else (lotteryFinalEntropy sha serverSeed (padClientSeed32 clientSeed) entropy32 nonce).toNat
    % totalLamports

/-- Each entry's ticket range `[start, end)`, in entry order. -/
def jackpotRanges (amounts : List Nat) : List (Nat × Nat) := rangesFrom 0 amounts

/-- `ticket >= r.start && ticket < r.end` -/
def inRange (ticket : Nat) (r : Nat × Nat) : Bool := decide (r.1 ≤ ticket) && decide (ticket < r.2)

/-- Index of the entry whose range holds `ticket`. -/
def jackpotWinnerIndex (amounts : List Nat) (ticket : Nat) : Option Nat :=
  (jackpotRanges amounts).findIdx? (inRange ticket)

theorem inRange_iff {ticket : Nat} {r : Nat × Nat} : inRange ticket r = true ↔ Holds ticket r := by
  simp [inRange, Holds]

theorem jackpotWinningTicket_lt (sha : Sha) (serverSeed clientSeed : String) (nonce : Nat)
    {total : Nat} (h : 0 < total) :
    jackpotWinningTicket sha serverSeed clientSeed nonce total < total := by
  rw [jackpotWinningTicket, if_neg (by omega)]
  exact Nat.mod_lt _ h

theorem jackpotTicketFromEntropy_lt (sha : Sha) (serverSeed clientSeed : String)
    (entropy32 : Bytes32) (nonce : Nat) {total : Nat} (h : 0 < total) :
    jackpotTicketFromEntropy sha serverSeed clientSeed entropy32 nonce total < total := by
  rw [jackpotTicketFromEntropy, if_neg (by omega)]
  exact Nat.mod_lt _ h

/-- The tickets below the pot are partitioned: each is in exactly one range,
and only those are in any. -/
theorem jackpotRanges_partition (amounts : List Nat) (ticket : Nat) :
    ticket < amounts.sum ↔
      ∃! i : Nat, ∃ r, (jackpotRanges amounts)[i]? = some r ∧ r.1 ≤ ticket ∧ ticket < r.2 := by
  have h : (0 ≤ ticket ∧ ticket < 0 + amounts.sum) ↔
      ∃! i : Nat, ∃ r, (jackpotRanges amounts)[i]? = some r ∧ Holds ticket r :=
    existsUnique_holds
  simpa [Holds] using h

theorem jackpotWinnerIndex_spec {amounts : List Nat} {ticket i : Nat}
    (h : jackpotWinnerIndex amounts ticket = some i) :
    ∃ r, (jackpotRanges amounts)[i]? = some r ∧ Holds ticket r := by
  obtain ⟨hi, hr, -⟩ := List.findIdx?_eq_some_iff_getElem.mp h
  exact ⟨_, List.getElem?_eq_getElem hi, inRange_iff.mp hr⟩

/-- A ticket below the pot has a winner. -/
theorem jackpotWinnerIndex_isSome {amounts : List Nat} {ticket : Nat}
    (h : ticket < amounts.sum) :
    ∃ i < amounts.length, jackpotWinnerIndex amounts ticket = some i := by
  obtain ⟨r, hr, hhold⟩ : ∃ r ∈ jackpotRanges amounts, Holds ticket r :=
    exists_holds (Nat.zero_le ticket) (by omega)
  cases hidx : jackpotWinnerIndex amounts ticket with
  | none =>
    have := List.findIdx?_eq_none_iff.mp hidx r hr
    rw [inRange_iff.mpr hhold] at this
    cases this
  | some i =>
    obtain ⟨hi, -⟩ := List.findIdx?_eq_some_iff_getElem.mp hidx
    exact ⟨i, by simpa [jackpotRanges] using hi, rfl⟩

/-! ## The weighted draw -/

section Weighted

open Scadium.Shared (weightedWinnerIndex)

variable {ticket : Nat} {weights : List Nat}

/-- What the first `i` weigh. -/
def weightBefore (weights : List Nat) (i : Nat) : Nat := (weights.take i).sum

/-- Entry `i` owns the ticket. -/
def Owns (weights : List Nat) (i ticket : Nat) : Prop :=
  weightBefore weights i ≤ ticket ∧ ticket < weightBefore weights (i + 1)

theorem weightBefore_succ {i w : Nat} (h : weights[i]? = some w) :
    weightBefore weights (i + 1) = weightBefore weights i + w := by
  rw [weightBefore, List.take_add_one, h]
  simp [weightBefore]

theorem weightBefore_mono {i j : Nat} (h : i ≤ j) :
    weightBefore weights i ≤ weightBefore weights j := by
  induction j, h using Nat.le_induction with
  | base => exact le_rfl
  | succ j h ih =>
    cases hj : weights[j]? with
    | none =>
      have hlen := List.getElem?_eq_none_iff.mp hj
      rw [weightBefore, weightBefore, List.take_of_length_le (by omega : weights.length ≤ j + 1)]
      rwa [weightBefore, weightBefore, List.take_of_length_le hlen] at ih
    | some =>
      rw [weightBefore_succ hj]
      omega

/-- No ticket has two owners. -/
theorem Owns.unique {i j : Nat} (hi : Owns weights i ticket) (hj : Owns weights j ticket) :
    i = j := by
  rcases Nat.lt_trichotomy i j with hlt | heq | hgt
  · have hle : weightBefore weights (i + 1) ≤ weightBefore weights j := weightBefore_mono hlt
    exact absurd (lt_of_lt_of_le hi.2 hle) (not_lt.mpr hj.1)
  · exact heq
  · have hle : weightBefore weights (j + 1) ≤ weightBefore weights i := weightBefore_mono hgt
    exact absurd (lt_of_lt_of_le hj.2 hle) (not_lt.mpr hi.1)

/-- By induction on the weights that are left, from those before them. -/
theorem walk_owns {cumulative i : Nat} {ws : List Nat} (hc : cumulative ≤ ticket)
    (ht : ticket < cumulative + ws.sum) :
    ∃ k < ws.length, weightedWinnerIndex.walk ticket cumulative i ws = i + k ∧
      cumulative + weightBefore ws k ≤ ticket ∧
      ticket < cumulative + weightBefore ws (k + 1) := by
  induction ws generalizing cumulative i with
  | nil =>
    simp only [List.sum_nil] at ht
    omega
  | cons w ws ih =>
    rw [weightedWinnerIndex.walk]
    split
    · rename_i hlt
      refine ⟨0, by simp, rfl, by simpa [weightBefore] using hc, ?_⟩
      simpa [weightBefore] using hlt
    · rename_i hge
      simp only [List.sum_cons] at ht
      obtain ⟨k, hk, _, hlow, hhigh⟩ := ih (i := i + 1) (by omega : cumulative + w ≤ ticket)
        (by omega)
      simp only [weightBefore] at hlow hhigh
      refine ⟨k + 1, by simpa using hk, by omega, ?_, ?_⟩
      · simp only [weightBefore, List.take_succ_cons, List.sum_cons]
        omega
      · simp only [weightBefore, List.take_succ_cons, List.sum_cons]
        omega

theorem weightedWinnerIndex_owns (h : ticket < weights.sum) :
    weightedWinnerIndex ticket weights < weights.length ∧
      Owns weights (weightedWinnerIndex ticket weights) ticket := by
  obtain ⟨k, hk, hwalk, _, _⟩ := walk_owns (i := 0) (Nat.zero_le ticket)
    (by omega : ticket < 0 + weights.sum)
  have hindex : weightedWinnerIndex ticket weights = k := by
    rw [weightedWinnerIndex, hwalk]
    omega
  rw [hindex]
  exact ⟨hk, by omega, by omega⟩

/-- The search through the ranges finds an owner, too. -/
theorem jackpotWinnerIndex_owns {i : Nat} (h : jackpotWinnerIndex weights ticket = some i) :
    Owns weights i ticket := by
  obtain ⟨r, hr, hlow, hhigh⟩ := jackpotWinnerIndex_spec h
  rw [jackpotRanges, getElem?_rangesFrom] at hr
  obtain ⟨w, hw, rfl⟩ := Option.map_eq_some_iff.mp hr
  simp only [Nat.zero_add] at hlow hhigh
  refine ⟨hlow, ?_⟩
  rw [weightBefore_succ hw]
  exact hhigh

/-- The tickets of an entry. -/
theorem tickets_eq_Ico {i w : Nat} (hw : weights[i]? = some w) :
    (Finset.range weights.sum).filter (fun ticket => weightedWinnerIndex ticket weights = i) =
      Finset.Ico (weightBefore weights i) (weightBefore weights i + w) := by
  have hsum : weightBefore weights weights.length = weights.sum := by
    rw [weightBefore, List.take_length]
  have hi : i < weights.length := (List.getElem?_eq_some_iff.mp hw).1
  ext ticket
  rw [Finset.mem_filter, Finset.mem_range, Finset.mem_Ico, ← weightBefore_succ hw]
  constructor
  · rintro ⟨hlt, rfl⟩
    exact (weightedWinnerIndex_owns hlt).2
  · intro howns
    have hle : weightBefore weights (i + 1) ≤ weightBefore weights weights.length :=
      weightBefore_mono hi
    have hlt : ticket < weights.sum := by omega
    exact ⟨hlt, ((weightedWinnerIndex_owns hlt).2).unique howns⟩

end Weighted

/-- Every ticket below the sum has one owner, of a weight that is not zero, and both
searches find it; so an entry has as many tickets as it weighs. -/
theorem winner_partition (weights : List Nat) :
    (∀ ticket < weights.sum,
      let i := Shared.weightedWinnerIndex ticket weights
      (Owns weights i ticket ∧ ∀ j, Owns weights j ticket → j = i) ∧
        (∃ w, weights[i]? = some w ∧ w ≠ 0) ∧ jackpotWinnerIndex weights ticket = some i) ∧
    ∀ i w, weights[i]? = some w →
      ((Finset.range weights.sum).filter
        fun ticket => Shared.weightedWinnerIndex ticket weights = i).card = w := by
  constructor
  · intro ticket hticket
    obtain ⟨hlt, howns⟩ := weightedWinnerIndex_owns hticket
    refine ⟨⟨howns, fun j hj => hj.unique howns⟩, ?_, ?_⟩
    · have hget := List.getElem?_eq_getElem hlt
      refine ⟨_, hget, ?_⟩
      have hsucc := weightBefore_succ hget
      have hlow := howns.1
      have hhigh := howns.2
      omega
    · obtain ⟨j, -, hj⟩ := jackpotWinnerIndex_isSome hticket
      rw [hj, (jackpotWinnerIndex_owns hj).unique howns]
  · intro i w hw
    rw [tickets_eq_Ico hw, Nat.card_Ico]
    omega

/-- A weight of zero wins nothing. -/
theorem winner_partition_sample :
    Shared.weightedWinnerIndex 3 [3, 0, 2] = 2 ∧ jackpotWinnerIndex [3, 0, 2] 3 = some 2 ∧
      ((Finset.range [3, 0, 2].sum).filter
        fun ticket => Shared.weightedWinnerIndex ticket [3, 0, 2] = 2).card = 2 := by
  obtain ⟨howner, hcard⟩ := winner_partition [3, 0, 2]
  obtain ⟨-, -, hjackpot⟩ := howner 3 (by decide)
  exact ⟨by decide, hjackpot.trans (by decide), hcard 2 2 (by decide)⟩

end Scadium.Fair
