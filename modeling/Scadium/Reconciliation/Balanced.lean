/-
Scadium.Reconciliation.Balanced — every settlement keeps the aggregates
beside its bets.

`Balanced` statements add to a user's aggregates what their bets add. Between
the update of the aggregates and the `Bet` row the two differ, so this is
said of whole settlements. The lottery updates each user once for all tickets
and writes a bet per ticket; its groups are followed ticket by ticket.
-/
import Scadium.Reconciliation.Checks

namespace Scadium.Reconciliation

open Scadium.Lib Scadium.Prisma
open Scadium.Games.Coinflip (winnerPayout)
open Scadium.Games.Lottery (TicketResult UserAgg perUser addResult)

/-! ## Balanced statements -/

/-- They add to the aggregates what their bets add. -/
def Balanced (stmts : List Stmt) : Prop :=
  ∀ u a, 0 ≤ a.biggest → tallies u stmts a = derives u stmts a

/-- A statement that touches neither aggregates nor bets. -/
def Stmt.neutral : Stmt → Bool
  | .record .. | .createBet .. => false
  | _ => true

theorem neutral_keep {stmts : List Stmt} (h : ∀ stmt ∈ stmts, stmt.neutral = true) (u : UserId)
    (a : Aggregates) : tallies u stmts a = a ∧ derives u stmts a = a := by
  induction stmts with
  | nil => exact ⟨rfl, rfl⟩
  | cons stmt rest ih =>
    have hrest := ih fun s hs => h s (List.mem_cons_of_mem _ hs)
    have hstmt := h stmt (List.mem_cons_self ..)
    cases stmt with
    | record => cases hstmt
    | createBet => cases hstmt
    | move | setPool | putPosition => exact hrest

namespace Balanced

variable {stmts stmts' : List Stmt}

theorem nil : Balanced [] := fun _ _ _ => rfl

theorem append (h : Balanced stmts) (h' : Balanced stmts') : Balanced (stmts ++ stmts') := by
  intro u a ha
  have hfirst := h u a ha
  have hrest := h' u (derives u stmts a) (derives_biggest ha)
  unfold tallies derives at *
  rw [List.foldl_append, List.foldl_append, hfirst, hrest]

theorem flatMap {α : Type} {xs : List α} {f : α → List Stmt} (h : ∀ x ∈ xs, Balanced (f x)) :
    Balanced (xs.flatMap f) := by
  induction xs with
  | nil => exact nil
  | cons x xs ih =>
    rw [List.flatMap_cons]
    exact (h x (List.mem_cons_self ..)).append (ih fun y hy => h y (List.mem_cons_of_mem _ hy))

theorem of_neutral (h : ∀ stmt ∈ stmts, stmt.neutral = true) : Balanced stmts := by
  intro u a _
  obtain ⟨htallies, hderives⟩ := neutral_keep h u a
  rw [htallies, hderives]

end Balanced

theorem credit_neutral {userId : UserId} {payout : Nat} :
    ∀ stmt ∈ credit userId payout, stmt.neutral = true := by
  unfold credit
  split
  · simp [Stmt.neutral]
  · simp

/-- The aggregates of a bet, then its row, whatever is credited in between. -/
theorem balanced_bet (userId : UserId) (stake payout : Nat) :
    Balanced (recordBet userId stake payout ++ [.createBet ⟨userId, stake, payout⟩]) := by
  intro u a ha
  by_cases hu : userId = u
  · simp only [recordBet, tallies, derives, List.cons_append, List.nil_append, List.foldl_cons,
      List.foldl_nil, Stmt.tally, Stmt.derive, hu, if_true, Aggregates.record,
      Aggregates.add, Aggregates.mk.injEq, and_true, true_and]
    omega
  · simp [recordBet, tallies, derives, Stmt.tally, Stmt.derive, hu]

/-- Neutral statements may stand anywhere. -/
theorem Balanced.insert {before between after : List Stmt}
    (h : Balanced (before ++ after)) (hn : ∀ stmt ∈ between, stmt.neutral = true) :
    Balanced (before ++ between ++ after) := by
  intro u a ha
  have hkeep := neutral_keep hn u
  have hall := h u a ha
  unfold tallies derives at *
  simp only [List.foldl_append, hkeep] at *
  exact hall

/-! ## The settlements -/

theorem settleResult_balanced (r : Result) : Balanced (settleResult r) :=
  (balanced_bet r.userId r.stake r.payout).insert credit_neutral

theorem settleStatefulRound_balanced (userId : UserId) (stake payout : Nat) :
    Balanced (settleStatefulRound userId stake payout) := by
  unfold settleStatefulRound
  rw [List.append_assoc]
  exact (Balanced.of_neutral credit_neutral).append (balanced_bet userId stake payout)

theorem settleInstantBet_balanced (userId : UserId) (amount payout : Nat) :
    Balanced (settleInstantBet userId amount payout) := by
  have hdebit : Balanced [.move userId (-amount) .jeton none] :=
    .of_neutral (by simp [Stmt.neutral])
  have hround := hdebit.append (settleStatefulRound_balanced userId amount payout)
  simpa [settleInstantBet, settleStatefulRound] using hround

theorem recoverBet_balanced (b : StrandedBet) : Balanced (recoverBet b) :=
  settleStatefulRound_balanced b.userId b.amountLamports (b.payoutLamports + b.remainingLamports)

theorem le_winnerPayout (stake : Nat) : stake ≤ winnerPayout stake := by
  have hmult : (Shared.mathRound (Shared.COINFLIP.PAYOUT_MULTIPLIER * 100)).toNat = 190 := by
    decide +kernel
  unfold winnerPayout
  rw [hmult]
  omega

theorem settleSide_balanced (stake : Nat) (userId : UserId) (won : Bool) :
    Balanced (settleSide stake userId won) := by
  have hle := le_winnerPayout stake
  intro u a ha
  unfold settleSide
  by_cases hu : userId = u
  · cases won with
    | true =>
      simp only [tallies, derives, List.foldl_cons, List.foldl_nil, Stmt.tally, Stmt.derive, hu,
        if_true, Aggregates.record, Aggregates.add, Aggregates.mk.injEq, and_true,
        true_and]
      omega
    | false =>
      simp only [tallies, derives, List.foldl_cons, List.foldl_nil, Stmt.tally, Stmt.derive, hu,
        if_true, Aggregates.record, Aggregates.add, Aggregates.mk.injEq, and_true,
        true_and, Bool.false_eq_true, if_false]
      omega
  · cases won with
    | true | false => simp [tallies, derives, Stmt.tally, Stmt.derive, hu]

theorem resolveFlip_balanced (creatorId : UserId) (joiner : Option UserId) (stake : Nat)
    (creatorWins : Bool) : Balanced (resolveFlip creatorId joiner stake creatorWins) := by
  cases joiner with
  | none => exact settleSide_balanced stake creatorId creatorWins
  | some joinerId =>
    have hdebit : Balanced [.move joinerId (-(stake : Int)) .jeton none] :=
      .of_neutral (by simp [Stmt.neutral])
    exact hdebit.append ((settleSide_balanced stake creatorId creatorWins).append
      (settleSide_balanced stake joinerId !creatorWins))

/-! ## The lottery -/

/-- A user's aggregates with those of some of the tickets. -/
def Aggregates.plus (a : Aggregates) (g : UserAgg) : Aggregates where
  wagered := a.wagered + g.wagered
  won := a.won + g.won
  lost := a.lost + g.lost
  biggest := max a.biggest g.biggest
  games := a.games + g.games

theorem tally_recordUser (p : UserId × UserAgg) (u : UserId) {a : Aggregates}
    (ha : 0 ≤ a.biggest) : (recordUser p).tally u a = if p.1 = u then a.plus p.2 else a := by
  by_cases hv : p.1 = u
  · by_cases hpos : 0 < p.2.biggest
    · simp [recordUser, Stmt.tally, hv, hpos, Aggregates.record, Aggregates.plus]
    · have hzero : p.2.biggest = 0 := by omega
      simp [recordUser, Stmt.tally, hv, hzero, Aggregates.record, Aggregates.plus, ha]
  · simp [recordUser, Stmt.tally, hv]

/-- One ticket more of a user who has some. -/
theorem plus_addResult (a : Aggregates) (g : UserAgg) (r : TicketResult) :
    a.plus (addResult (some g) r) = (a.plus g).add (ticketBet r) := by
  simp only [Aggregates.plus, Aggregates.add, addResult, ticketBet, Option.getD_some,
    Aggregates.mk.injEq]
  omega

/-- A user's first ticket. -/
theorem plus_addResult_none {a : Aggregates} (ha : 0 ≤ a.biggest) (r : TicketResult) :
    a.plus (addResult none r) = a.add (ticketBet r) := by
  have hzero : a.plus ⟨0, 0, 0, 0, 0⟩ = a := by simp [Aggregates.plus, ha]
  have hadd := plus_addResult a ⟨0, 0, 0, 0, 0⟩ r
  rwa [hzero] at hadd

/-- What the groups add to a user's aggregates. -/
def addGroups (u : UserId) (groups : List (UserId × UserAgg)) (a : Aggregates) : Aggregates :=
  groups.foldl (fun a p => if p.1 = u then a.plus p.2 else a) a

theorem addGroups_of_notMem {u : UserId} {groups : List (UserId × UserAgg)} {a : Aggregates}
    (h : u ∉ groups.map Prod.fst) : addGroups u groups a = a := by
  induction groups with
  | nil => rfl
  | cons p groups ih =>
    simp only [List.map_cons, List.mem_cons, not_or] at h
    simp only [addGroups, List.foldl_cons, if_neg (Ne.symm h.1)]
    exact ih h.2

/-- A ticket changes the group of its user only. -/
theorem addGroups_insertWith {u : UserId} {r : TicketResult} : ∀ {groups : List (UserId × UserAgg)}
    {a : Aggregates}, (groups.map Prod.fst).Nodup → 0 ≤ a.biggest →
      addGroups u (insertWith (fun g => addResult g r) r.ticket.userId groups) a =
        if r.ticket.userId = u then (addGroups u groups a).add (ticketBet r)
        else addGroups u groups a
  | [], a, _, ha => by
      by_cases hu : r.ticket.userId = u
      · simp [insertWith, addGroups, hu, plus_addResult_none ha]
      · simp [insertWith, addGroups, hu]
  | (v, g) :: groups, a, hnodup, ha => by
      obtain ⟨hv, hrest⟩ := List.nodup_cons.mp hnodup
      by_cases hkey : v = r.ticket.userId
      · subst hkey
        simp only [insertWith, if_true]
        by_cases hu : r.ticket.userId = u
        · subst hu
          have hskip : ∀ b, addGroups r.ticket.userId groups b = b :=
            fun b => addGroups_of_notMem hv
          simp only [addGroups, List.foldl_cons, if_true] at hskip ⊢
          rw [hskip, hskip, plus_addResult]
        · simp [addGroups, hu]
      · simp only [insertWith, hkey, if_false]
        have ha' : 0 ≤ (if v = u then a.plus g else a).biggest := by
          split
          · exact le_max_of_le_left ha
          · exact ha
        exact addGroups_insertWith hrest ha'

theorem addGroups_perUser (u : UserId) (results : List TicketResult) {a : Aggregates}
    (ha : 0 ≤ a.biggest) : addGroups u (perUser results) a =
      derives u (results.map fun r => .createBet (ticketBet r)) a := by
  induction results using List.reverseRecOn with
  | nil => rfl
  | append_singleton results r ih =>
    have hgroups : perUser (results ++ [r]) =
        insertWith (fun g => addResult g r) r.ticket.userId (perUser results) :=
      groupBy_concat ..
    have hnodup : ((perUser results).map Prod.fst).Nodup := nodup_keys_groupBy ..
    rw [hgroups, addGroups_insertWith hnodup ha, ih]
    simp [derives, Stmt.derive, ticketBet]

theorem tallies_recordUsers (u : UserId) (groups : List (UserId × UserAgg)) {a : Aggregates}
    (ha : 0 ≤ a.biggest) : tallies u (groups.map recordUser) a = addGroups u groups a := by
  induction groups generalizing a with
  | nil => rfl
  | cons p groups ih =>
    have hb : 0 ≤ (if p.1 = u then a.plus p.2 else a).biggest := by
      split
      · exact le_max_of_le_left ha
      · exact ha
    have hrest := ih hb
    unfold tallies at *
    rw [List.map_cons, List.foldl_cons, tally_recordUser p u ha, hrest]
    rfl

theorem derives_recordUsers {u : UserId} (groups : List (UserId × UserAgg)) (a : Aggregates) :
    derives u (groups.map recordUser) a = a := by
  induction groups with
  | nil => rfl
  | cons p groups ih => exact ih

theorem tallies_bets {u : UserId} (results : List TicketResult) (a : Aggregates) :
    tallies u (results.map fun r => .createBet (ticketBet r)) a = a := by
  induction results with
  | nil => rfl
  | cons r results ih => exact ih

/-- One update per user against one bet per ticket. -/
theorem settleLottery_balanced (results : List TicketResult) (enabled : Bool) :
    Balanced (settleLottery results enabled) := by
  have hprizes : ∀ stmt ∈ (if enabled then [] else results.flatMap fun r =>
      credit r.ticket.userId r.payoutLamports), stmt.neutral = true := by
    cases enabled with
    | true => simp
    | false =>
      intro stmt hs
      obtain ⟨r, -, hr⟩ := List.mem_flatMap.mp hs
      exact credit_neutral stmt hr
  refine Balanced.insert ?_ hprizes
  intro u a ha
  have hrecords := derives_recordUsers (u := u) (perUser results) a
  have htallies := tallies_recordUsers u (perUser results) ha
  have hbets := tallies_bets (u := u) results (addGroups u (perUser results) a)
  rw [← htallies] at hbets
  have hgroups := addGroups_perUser u results ha
  unfold tallies derives at *
  rw [List.foldl_append, List.foldl_append, hbets, hrecords, htallies, hgroups]

end Scadium.Reconciliation
