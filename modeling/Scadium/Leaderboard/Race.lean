/-
Scadium.Leaderboard.Race — the daily race (`leaderboard/leaderboard.service.ts`).

`settleRace` pays the top wagerers of a completed day. It reads the banned accounts, then
the standings, and then pays one rank after the other, each in a transaction of its own.
A run may stop between any two of these steps, and every run ranks the players anew. A
user is paid once a day, since the column pair is unique; nothing keeps a rank from being
paid to two users when the standings have changed between two runs.

A `RaceResult` row and the credit it goes with are written in one transaction; the credit
refers to the row. Whether custody is on and whether a transaction fails are answers of
the environment. Left out: the display fields of the standings, and what else moves
balances.

- Prizes: a day whose ranks are paid once each pays no more than the pool.
- Results and credits: each row has its credit, and pays what its rank wins.
- Standings: they are made of the day's settled bets and of their players; a rank has one
  entry.
- Quiet days: while a day may be settled no bet of it is, and none of its players is
  banned, let in again or converted. So every run of the day ranks them alike
  (`quiet_step`), and a rank that is paid anew is paid to the same user, which the column
  pair refuses.
-/
import Mathlib.Data.List.Sort
import Mathlib.Algebra.Order.BigOperators.Group.Finset
import Mathlib.Order.Interval.Finset.Nat
import Scadium.Lib.Calls
import Scadium.Queue.Periods
import Scadium.Shared.Constants

namespace Scadium.Leaderboard

open Scadium.Lib Scadium.Prisma Scadium.Queue Scadium.Shared

structure Player where
  banned : Bool
  fundedAt : Option Time
  playBalanceLamports : Nat
  deriving DecidableEq

structure Wager where
  userId : UserId
  amountLamports : Nat
  status : BetStatus
  createdAt : Time
  deriving DecidableEq

structure WindowEntry where
  rank : Nat
  userId : UserId
  volumeLamports : Nat
  deriving DecidableEq

abbrev ResultId := Nat

structure RaceResult where
  id : ResultId
  raceDay : Day
  userId : UserId
  rank : Nat
  volumeLamports : Nat
  prizeLamports : Nat
  deriving DecidableEq

/-- A ledger row with reason `race_prize`. -/
structure Credit where
  userId : UserId
  delta : Nat
  refId : ResultId
  deriving DecidableEq

structure State where
  now : Time
  /-- `DEMO_BOT_IDS` -/
  demoBotIds : List UserId
  users : Table UserId Player
  bets : Table BetId Wager
  /-- newest first -/
  results : List RaceResult
  ledger : List Credit

/-- What the environment answers in a step. -/
structure Answer where
  /-- `economyEnforced()` -/
  enforced : Bool
  /-- the transaction fails -/
  failed : Bool

/-- What a call has still to do. -/
inductive Call where
  /-- the job -/
  | settleRace (raceDay : Day)
  | topByWindowVolume (raceDay : Day) (exclude : List UserId)
  | pay (raceDay : Day) (winners : List WindowEntry)
  | register (userId : UserId)
  | placeBet (id : BetId) (userId : UserId) (amountLamports : Nat)
  | settleBet (id : BetId) (status : BetStatus)
  /-- an administrator -/
  | setBanned (userId : UserId) (banned : Bool)
  /-- a first deposit -/
  | convert (userId : UserId)
  | tick (now : Time)
  deriving DecidableEq

/-- Higher volume first, then the lower id. -/
def Ahead (a b : UserId × Nat) : Prop := b.2 < a.2 ∨ a.2 = b.2 ∧ a.1 ≤ b.1

instance : DecidableRel Ahead := fun a b =>
  inferInstanceAs (Decidable (b.2 < a.2 ∨ a.2 = b.2 ∧ a.1 ≤ b.1))

/-- `promotionRecipients`, as a filter. -/
def promotionRecipients (enforced : Bool) (user : Player) : Bool :=
  !enforced || user.fundedAt.isNone

namespace State

variable (a : State)

/-- `excludedUserIds(true)` -/
def excludedUserIds : List UserId :=
  a.demoBotIds ++ (a.users.filter fun _ user => user.banned).entries.map Prod.fst

/-- The settled bets of the window. -/
def windowBets (start stop : Time) (exclude : List UserId) (enforced : Bool) : List Wager :=
  (a.bets.entries.map Prod.snd).filter fun bet =>
    start ≤ bet.createdAt && bet.createdAt < stop && (bet.status == .won || bet.status == .lost) &&
      !exclude.contains bet.userId && (a.users.get bet.userId).any (promotionRecipients enforced)

def topByWindowVolume (start stop : Time) (limit : Nat) (exclude : List UserId) (enforced : Bool) :
    List WindowEntry :=
  let grouped := groupBy Wager.userId (fun volume bet => volume.getD 0 + bet.amountLamports)
    (a.windowBets start stop exclude enforced)
  ((grouped.insertionSort Ahead).take limit).zipIdx.map fun (g, i) => ⟨i + 1, g.1, g.2⟩

/-- `stillPlay` -/
def stillPlay (userId : UserId) (enforced : Bool) : Bool :=
  !enforced || (a.users.get userId).any fun user => user.fundedAt.isNone

/-- `raceResult.create` and `applyBalanceDelta`. -/
def credit (raceDay : Day) (w : WindowEntry) : Option State :=
  if a.results.any fun r => r.raceDay == raceDay && r.userId == w.userId then none
  else
    (a.users.get w.userId).map fun user =>
      let prize := racePrizeLamports (w.rank - 1)
      { a with
        users := a.users.set w.userId
          { user with playBalanceLamports := user.playBalanceLamports + prize }
        results := ⟨a.results.length, raceDay, w.userId, w.rank, w.volumeLamports, prize⟩ ::
          a.results
        ledger := ⟨w.userId, prize, a.results.length⟩ :: a.ledger }

/-- The transaction of one winner. -/
def payWinner (answer : Answer) (raceDay : Day) (w : WindowEntry) : Option State :=
  if racePrizeLamports (w.rank - 1) = 0 ∨ answer.failed ∨ !a.stillPlay w.userId answer.enforced then
    none
  else a.credit raceDay w

end State

/-- One step of a call. -/
def Call.step (a : State) (answer : Answer) : Call → State × Option Call
  | .settleRace raceDay => (a, some (.topByWindowVolume raceDay a.excludedUserIds))
  | .topByWindowVolume raceDay exclude =>
      let start := dayPeriodStartMs raceDay
      (a, some (.pay raceDay (a.topByWindowVolume start (start + DAY_MS) RACE.PAYOUT_BPS.length
        exclude answer.enforced)))
  | .pay _ [] => (a, none)
  | .pay raceDay (w :: winners) =>
      ((a.payWinner answer raceDay w).getD a, some (.pay raceDay winners))
  | .register userId =>
      match a.users.get userId with
      | some _ => (a, none)
      | none => ({ a with users := a.users.set userId ⟨false, none, 0⟩ }, none)
  | .placeBet id userId amountLamports =>
      match a.users.get userId, a.bets.get id with
      | some _, none =>
          ({ a with bets := a.bets.set id ⟨userId, amountLamports, .pending, a.now⟩ }, none)
      | _, _ => (a, none)
  | .settleBet id status =>
      match a.bets.get id with
      | none => (a, none)
      | some bet =>
          if bet.status = .pending then
            ({ a with bets := a.bets.set id { bet with status := status } }, none)
          else (a, none)
  | .setBanned userId banned =>
      match a.users.get userId with
      | none => (a, none)
      | some user => ({ a with users := a.users.set userId { user with banned := banned } }, none)
  | .convert userId =>
      match a.users.get userId with
      | none => (a, none)
      | some user =>
          if user.fundedAt.isNone then
            ({ a with users := a.users.set userId ⟨user.banned, some a.now, 0⟩ }, none)
          else (a, none)
  | .tick now => ({ a with now := max a.now now }, none)

/-- A call may begin so. The job settles the last completed day. -/
def Call.isEntry (a : State) : Call → Bool
  | .settleRace raceDay => raceDay == lastCompletedDayPeriod a.now
  | .topByWindowVolume .. | .pay .. => false
  | .register .. | .placeBet .. | .settleBet .. | .setBanned .. | .convert .. | .tick .. => true

def service : Calls.Service State Call Answer where
  begins a call := call.isEntry a
  step a answer call := some (call.step a answer)

/-- No account and no bet, after the first day of the epoch. -/
def State.initial (demoBotIds : List UserId) : State :=
  ⟨DAY_MS, demoBotIds, .empty, .empty, [], []⟩

variable {a a' : State} {answer : Answer} {call : Call} {rest : Option Call} {raceDay : Day}
  {w : WindowEntry}

/-- The prizes that were credited, each with its row. -/
def State.payments (a : State) : List (Credit × RaceResult) :=
  a.ledger.filterMap fun c => (a.results.find? fun r => r.id == c.refId).map fun r => (c, r)

/-- What was credited for the day. -/
def State.paidFor (a : State) (raceDay : Day) : Nat :=
  weight (fun p => p.1.delta) (a.payments.filter fun p => p.2.raceDay == raceDay)

/-- On each day a rank is paid once and a user is paid once, and the pool is
enough for all of it. -/
structure Bounded (a : State) : Prop where
  ranks : (a.payments.map fun p => (p.2.raceDay, p.2.rank)).Nodup
  users : (a.payments.map fun p => (p.2.raceDay, p.1.userId)).Nodup
  total : ∀ raceDay, a.paidFor raceDay ≤ RACE.DAILY_POOL_LAMPORTS

/-! ## Days that are settled -/

def Wager.settled (bet : Wager) : Bool := bet.status == .won || bet.status == .lost

/-- The day the call settles. -/
def Call.raceDay? : Call → Option Day
  | .settleRace raceDay | .topByWindowVolume raceDay _ | .pay raceDay _ => some raceDay
  | _ => none

/-- A run for the day is under way, or one may still begin and prizes of the day are paid. -/
def Settling (s : Calls.System State Call) (raceDay : Day) : Prop :=
  (∃ p ∈ s.calls.entries, p.2.raceDay? = some raceDay) ∨
    raceDay = lastCompletedDayPeriod s.data.now ∧ ∃ r ∈ s.data.results, r.raceDay = raceDay

instance (s : Calls.System State Call) (raceDay : Day) : Decidable (Settling s raceDay) :=
  inferInstanceAs (Decidable (_ ∨ _ ∧ _))

/-- The user has no settled bet of a day that is being settled. -/
def Uninvolved (s : Calls.System State Call) (userId : UserId) : Prop :=
  ∀ p ∈ s.data.bets.entries, p.2.userId = userId → p.2.settled = true →
    ¬ Settling s (dayPeriod p.2.createdAt)

instance (s : Calls.System State Call) (userId : UserId) : Decidable (Uninvolved s userId) :=
  inferInstanceAs (Decidable (∀ _ ∈ _, _))

/-- Nothing that a run for the day reads changes between two runs: no player of the day is
banned, let in again or converted, no late bet is settled, and custody is as it was. -/
def Quiet (enforced : Bool) (s : Calls.System State Call) : Calls.Event Call Answer → Prop
  | .run id answer => ∀ call ∈ s.calls.get id, match call with
      | .setBanned userId _ | .convert userId => Uninvolved s userId
      | .settleBet betId _ => ∀ bet ∈ s.data.bets.get betId, ¬ Settling s (dayPeriod bet.createdAt)
      | .topByWindowVolume _ _ => answer.enforced = enforced
      | _ => True
  | _ => True

instance (enforced : Bool) (s : Calls.System State Call) :
    ∀ e, Decidable (Quiet enforced s e)
  | .start .. | .kill _ => .isTrue trivial
  | .run id answer =>
      have (call : Call) : Decidable (match call with
          | .setBanned userId _ | .convert userId => Uninvolved s userId
          | .settleBet betId _ =>
              ∀ bet ∈ s.data.bets.get betId, ¬ Settling s (dayPeriod bet.createdAt)
          | .topByWindowVolume _ _ => answer.enforced = enforced
          | _ => True) := by
        cases call <;> dsimp only <;> infer_instance
      inferInstanceAs (Decidable (∀ call ∈ s.calls.get id, _))

/-! ## Prizes -/

theorem racePrize_pos {rank : Nat} (h : racePrizeLamports (rank - 1) ≠ 0) (hrank : 0 < rank) :
    rank ∈ Finset.Icc 1 RACE.PAYOUT_BPS.length := by
  have hlt : rank - 1 < RACE.PAYOUT_BPS.length := by
    refine Nat.lt_of_not_le fun hle => h ?_
    simp [racePrizeLamports, List.getElem?_eq_none hle]
  rw [Finset.mem_Icc]
  omega

/-- All ranks together win no more than the pool. -/
theorem sum_racePrizes :
    ∑ rank ∈ Finset.Icc 1 RACE.PAYOUT_BPS.length, racePrizeLamports (rank - 1) ≤
      RACE.DAILY_POOL_LAMPORTS := by
  decide

theorem prizes_le_pool {ranks : List Nat} (h : ranks.Nodup) (hpos : ∀ rank ∈ ranks, 0 < rank) :
    weight (fun rank => racePrizeLamports (rank - 1)) ranks ≤ RACE.DAILY_POOL_LAMPORTS := by
  have hsum : weight (fun rank => racePrizeLamports (rank - 1)) ranks =
      ∑ rank ∈ ranks.toFinset, racePrizeLamports (rank - 1) :=
    (List.sum_toFinset _ h).symm
  rw [hsum]
  refine le_trans (Finset.sum_le_sum_of_ne_zero ?_) sum_racePrizes
  intro rank hmem hne
  exact racePrize_pos hne (hpos rank (List.mem_toFinset.mp hmem))

/-! ## Results and credits -/

def RaceResult.credit (r : RaceResult) : Credit := ⟨r.userId, r.prizeLamports, r.id⟩

/-- Every result has its credit, and pays what its rank wins. -/
structure Booked (a : State) : Prop where
  ledger : a.ledger = a.results.map RaceResult.credit
  ids : (a.results.map RaceResult.id).Nodup
  fresh : ∀ r ∈ a.results, r.id < a.results.length
  prizes : ∀ r ∈ a.results, 0 < r.rank ∧ r.prizeLamports = racePrizeLamports (r.rank - 1)
  users : (a.results.map fun r => (r.raceDay, r.userId)).Nodup

/-- Ids are keys. -/
theorem find_id {rs : List RaceResult} (h : (rs.map RaceResult.id).Nodup) {r : RaceResult}
    (hr : r ∈ rs) : (rs.find? fun q => q.id == r.id) = some r := by
  induction rs with
  | nil => cases hr
  | cons q rs ih =>
    obtain ⟨hq, hrs⟩ := List.nodup_cons.mp h
    rcases List.mem_cons.mp hr with rfl | hr
    · simp
    · have hne : q.id ≠ r.id := by
        intro heq
        exact hq (heq ▸ List.mem_map_of_mem hr)
      simpa [hne] using ih hrs hr

theorem Booked.payments (h : Booked a) :
    a.payments = a.results.map fun r => (r.credit, r) := by
  rw [State.payments, h.ledger, List.filterMap_map, ← List.filterMap_eq_map]
  refine List.filterMap_congr ?_
  intro r hr
  simp [RaceResult.credit, find_id h.ids hr]

theorem Booked.paidFor (h : Booked a) (raceDay : Day) :
    a.paidFor raceDay =
      weight (fun rank => racePrizeLamports (rank - 1))
        ((a.results.filter fun r => r.raceDay == raceDay).map RaceResult.rank) := by
  rw [State.paidFor, h.payments, List.filter_map, weight_map, weight_map]
  refine weight_congr ?_
  intro r hr
  exact (h.prizes r (List.mem_of_mem_filter hr)).2

/-- Of the bounds, only the ranks are not kept by the rows themselves. -/
theorem bounded_of_ranks (h : Booked a)
    (hnodup : (a.results.map fun r => (r.raceDay, r.rank)).Nodup) : Bounded a := by
  have hranks : (a.payments.map fun p => (p.2.raceDay, p.2.rank)) =
      a.results.map fun r => (r.raceDay, r.rank) := by
    simp [h.payments]
  have husers : (a.payments.map fun p => (p.2.raceDay, p.1.userId)) =
      a.results.map fun r => (r.raceDay, r.userId) := by
    simp [h.payments, RaceResult.credit]
  refine ⟨hranks ▸ hnodup, husers ▸ h.users, ?_⟩
  intro raceDay
  rw [h.paidFor]
  refine prizes_le_pool ?_ ?_
  · -- of one day, so apart already by their ranks
    have hday : ((a.results.filter fun r => r.raceDay == raceDay).map
        fun r => (r.raceDay, r.rank)).Nodup :=
      hnodup.sublist (List.filter_sublist.map _)
    refine List.Nodup.of_map (fun rank => (raceDay, rank)) ?_
    rw [List.map_map]
    refine (List.map_congr_left ?_) ▸ hday
    intro r hr
    have heq := (List.mem_filter.mp hr).2
    simp [beq_iff_eq.mp heq]
  · intro rank hrank
    obtain ⟨r, hr, rfl⟩ := List.mem_map.mp hrank
    exact (h.prizes r (List.mem_of_mem_filter hr)).1

/-! ## Standings -/

/-- The settled bets of the day. -/
def State.counted (a : State) (raceDay : Day) : List Wager :=
  (a.bets.entries.map Prod.snd).filter fun bet =>
    bet.settled && dayPeriod bet.createdAt == raceDay

/-- What a run for the day reads if nothing changes between its two statements. -/
def State.standings (a : State) (enforced : Bool) (raceDay : Day) : List WindowEntry :=
  a.topByWindowVolume (dayPeriodStartMs raceDay) (dayPeriodStartMs raceDay + DAY_MS)
    RACE.PAYOUT_BPS.length a.excludedUserIds enforced

/-- What the standings see of a player. -/
def Player.standing (user : Player) : Bool × Option Time := (user.banned, user.fundedAt)

theorem mem_counted {bet : Wager} : bet ∈ a.counted raceDay ↔
    (∃ id, a.bets.get id = some bet) ∧ bet.settled = true ∧ dayPeriod bet.createdAt = raceDay := by
  simp [State.counted, Table.get_eq_some]

theorem windowBets_eq (exclude : List UserId) (enforced : Bool) :
    a.windowBets (dayPeriodStartMs raceDay) (dayPeriodStartMs raceDay + DAY_MS) exclude enforced =
      (a.counted raceDay).filter fun bet => !exclude.contains bet.userId &&
        (a.users.get bet.userId).any (promotionRecipients enforced) := by
  rw [State.windowBets, State.counted, List.filter_filter]
  refine List.filter_congr fun bet _ => ?_
  have hday : (dayPeriod bet.createdAt == raceDay) =
      (decide (dayPeriodStartMs raceDay ≤ bet.createdAt) &&
        decide (bet.createdAt < dayPeriodStartMs raceDay + DAY_MS)) := by
    rw [← Bool.decide_and, Bool.eq_iff_iff, beq_iff_eq, decide_eq_true_eq]
    exact dayPeriod_eq_iff
  rw [hday, Wager.settled]
  ac_rfl

theorem contains_excludedUserIds (a : State) (userId : UserId) :
    a.excludedUserIds.contains userId =
      (a.demoBotIds.contains userId || (a.users.get userId).any Player.banned) := by
  rw [Bool.eq_iff_iff]
  simp [State.excludedUserIds, Table.filter, Option.any_eq_true, Table.get_eq_some]

/-- A rank of the standings has one entry. -/
theorem standings_rank {enforced : Bool} {v : WindowEntry} (hv : v ∈ a.standings enforced raceDay)
    (hw : w ∈ a.standings enforced raceDay) (hrank : v.rank = w.rank) : v = w := by
  simp only [State.standings, State.topByWindowVolume, List.mem_map] at hv hw
  obtain ⟨⟨g, i⟩, hg, rfl⟩ := hv
  obtain ⟨⟨g', i'⟩, hg', rfl⟩ := hw
  obtain rfl : i = i' := Nat.succ.inj hrank
  rw [List.mem_zipIdx_iff_getElem?] at hg hg'
  obtain rfl : g = g' := Option.some.inj (hg.symm.trans hg')
  rfl

theorem topByWindowVolume_rank {start stop : Time} {limit : Nat} {exclude : List UserId}
    {enforced : Bool} (h : w ∈ a.topByWindowVolume start stop limit exclude enforced) :
    0 < w.rank := by
  simp only [State.topByWindowVolume, List.mem_map] at h
  obtain ⟨⟨g, i⟩, -, rfl⟩ := h
  exact Nat.succ_pos i

/-- The day's bets and their players are as they were. -/
structure Same (a a' : State) (raceDay : Day) : Prop where
  demoBotIds : a'.demoBotIds = a.demoBotIds
  counted : a'.counted raceDay = a.counted raceDay
  players : ∀ bet ∈ a.counted raceDay,
    (a'.users.get bet.userId).map Player.standing = (a.users.get bet.userId).map Player.standing

theorem Same.excluded (h : Same a a' raceDay) {bet : Wager} (hbet : bet ∈ a.counted raceDay) :
    a'.excludedUserIds.contains bet.userId = a.excludedUserIds.contains bet.userId := by
  have hbanned := congrArg (Option.any Prod.fst) (h.players bet hbet)
  rw [contains_excludedUserIds, contains_excludedUserIds, h.demoBotIds]
  simp only [Option.any_map] at hbanned
  exact congrArg _ hbanned

theorem Same.racer (h : Same a a' raceDay) {bet : Wager} (hbet : bet ∈ a.counted raceDay)
    (enforced : Bool) : (a'.users.get bet.userId).any (promotionRecipients enforced) =
      (a.users.get bet.userId).any (promotionRecipients enforced) := by
  have hfunded := congrArg (Option.any fun p => !enforced || p.2.isNone) (h.players bet hbet)
  simp only [Option.any_map] at hfunded
  exact hfunded

theorem Same.standings (h : Same a a' raceDay) (enforced : Bool) :
    a'.standings enforced raceDay = a.standings enforced raceDay := by
  simp only [State.standings, State.topByWindowVolume, windowBets_eq, h.counted]
  rw [List.filter_congr fun bet hbet => by rw [h.excluded hbet, h.racer hbet]]

/-! ## Steps -/

/-- What a step of a call does. -/
inductive Moves (a : State) (answer : Answer) : Call → State → Option Call → Prop where
  | reads (raceDay : Day) : Moves a answer (.settleRace raceDay) a
      (some (.topByWindowVolume raceDay a.excludedUserIds))
  | ranks (raceDay : Day) (exclude : List UserId) :
      Moves a answer (.topByWindowVolume raceDay exclude) a
        (some (.pay raceDay (a.topByWindowVolume (dayPeriodStartMs raceDay)
          (dayPeriodStartMs raceDay + DAY_MS) RACE.PAYOUT_BPS.length exclude answer.enforced)))
  | skips (raceDay : Day) (w : WindowEntry) (winners : List WindowEntry) :
      Moves a answer (.pay raceDay (w :: winners)) a (some (.pay raceDay winners))
  | pays (raceDay : Day) (w : WindowEntry) (winners : List WindowEntry) (user : Player)
      (r : RaceResult) (huser : a.users.get w.userId = some user)
      (hunpaid : ∀ q ∈ a.results, q.raceDay = raceDay → q.userId ≠ w.userId)
      (hr : r = ⟨a.results.length, raceDay, w.userId, w.rank, w.volumeLamports,
        racePrizeLamports (w.rank - 1)⟩) :
      Moves a answer (.pay raceDay (w :: winners)) { a with
          users := a.users.set w.userId
            { user with playBalanceLamports := user.playBalanceLamports + r.prizeLamports }
          results := r :: a.results, ledger := r.credit :: a.ledger }
        (some (.pay raceDay winners))
  | ends (call : Call) : Moves a answer call a none
  | registers (userId : UserId) (user : Player) (hget : a.users.get userId = none) :
      Moves a answer (.register userId) { a with users := a.users.set userId user } none
  | changes {call : Call} (userId : UserId) (user user' : Player)
      (hget : a.users.get userId = some user)
      (hcall : (∃ banned, call = .setBanned userId banned) ∨ call = .convert userId) :
      Moves a answer call { a with users := a.users.set userId user' } none
  | places (id : BetId) (bet : Wager) (hfree : a.bets.get id = none)
      (huser : (a.users.get bet.userId).isSome = true) (hpending : bet.settled = false) :
      Moves a answer (.placeBet id bet.userId bet.amountLamports)
        { a with bets := a.bets.set id bet } none
  | settles (id : BetId) (bet : Wager) (status : BetStatus) (hget : a.bets.get id = some bet)
      (hpending : bet.settled = false) :
      Moves a answer (.settleBet id status)
        { a with bets := a.bets.set id { bet with status := status } } none
  | ticks (now : Time) : Moves a answer (.tick now) { a with now := max a.now now } none

theorem payWinner_moves {winners : List WindowEntry} (h : a.payWinner answer raceDay w = some a') :
    Moves a answer (.pay raceDay (w :: winners)) a' (some (.pay raceDay winners)) := by
  simp only [State.payWinner, State.credit] at h
  split at h
  · cases h
  split at h
  · cases h
  rename_i hunpaid
  obtain ⟨user, huser, rfl⟩ := Option.map_eq_some_iff.mp h
  refine .pays raceDay w winners user _ huser ?_ rfl
  intro r hr hday huser'
  exact hunpaid (List.any_eq_true.mpr ⟨r, hr, by simp [hday, huser']⟩)

theorem step_moves (hstep : call.step a answer = (a', rest)) : Moves a answer call a' rest := by
  cases call with
  | settleRace raceDay =>
    cases hstep
    exact .reads raceDay
  | topByWindowVolume raceDay exclude =>
    cases hstep
    exact .ranks raceDay exclude
  | pay raceDay winners =>
    cases winners with
    | nil =>
      cases hstep
      exact .ends _
    | cons w winners =>
      simp only [Call.step] at hstep
      cases hpay : a.payWinner answer raceDay w with
      | none =>
        rw [hpay] at hstep
        cases hstep
        exact .skips raceDay w winners
      | some =>
        rw [hpay] at hstep
        cases hstep
        exact payWinner_moves hpay
  | register userId =>
    simp only [Call.step] at hstep
    split at hstep
    · cases hstep
      exact .ends _
    · rename_i hget
      cases hstep
      exact .registers userId _ hget
  | placeBet id userId amountLamports =>
    simp only [Call.step] at hstep
    split at hstep
    · rename_i user huser hfree
      cases hstep
      exact .places id ⟨userId, amountLamports, .pending, a.now⟩ hfree (by simp [huser]) rfl
    · cases hstep
      exact .ends _
  | settleBet id status =>
    simp only [Call.step] at hstep
    split at hstep
    · cases hstep
      exact .ends _
    rename_i bet hget
    split at hstep
    · rename_i hpending
      cases hstep
      exact .settles id bet status hget (by simp [Wager.settled, hpending])
    · cases hstep
      exact .ends _
  | setBanned userId banned =>
    simp only [Call.step] at hstep
    split at hstep
    · cases hstep
      exact .ends _
    · rename_i user hget
      cases hstep
      exact .changes userId user _ hget (.inl ⟨banned, rfl⟩)
  | convert userId =>
    simp only [Call.step] at hstep
    split at hstep
    · cases hstep
      exact .ends _
    rename_i user hget
    split at hstep
    · cases hstep
      exact .changes userId user _ hget (.inr rfl)
    · cases hstep
      exact .ends _
  | tick now =>
    cases hstep
    exact .ticks now

theorem Moves.now (h : Moves a answer call a' rest) : a.now ≤ a'.now := by
  cases h with
  | ticks => exact le_max_left _ _
  | _ => exact le_rfl

/-- A call goes on for its day. -/
theorem Moves.day {call' : Call} (h : Moves a answer call a' (some call')) :
    call'.raceDay? = call.raceDay? := by
  cases h <;> rfl

/-- The rows after a step were there before it, or one is new. -/
theorem Moves.results (h : Moves a answer call a' rest) {r : RaceResult} (hr : r ∈ a'.results) :
    r ∈ a.results ∨ ∃ raceDay w winners, call = .pay raceDay (w :: winners) ∧
      r.raceDay = raceDay ∧ r.userId = w.userId ∧ r.rank = w.rank := by
  cases h with
  | pays raceDay w winners user _ _ _ hnew =>
    rcases List.mem_cons.mp hr with rfl | hr
    · exact .inr ⟨raceDay, w, winners, rfl, by rw [hnew], by rw [hnew], by rw [hnew]⟩
    · exact .inl hr
  | _ => exact .inl hr

theorem Booked.step (h : Booked a) (hmoves : Moves a answer call a' rest)
    (hranked : ∀ raceDay w winners, call = .pay raceDay (w :: winners) → 0 < w.rank) :
    Booked a' := by
  cases hmoves with
  | pays raceDay w winners user r huser hunpaid hr =>
    have hid : r.id = a.results.length := by rw [hr]
    refine ⟨?_, ?_, ?_, ?_, ?_⟩
    · simp [h.ledger]
    · refine List.nodup_cons.mpr ⟨?_, h.ids⟩
      intro hmem
      obtain ⟨q, hq, heq⟩ := List.mem_map.mp hmem
      have hlt := h.fresh q hq
      rw [heq, hid] at hlt
      exact absurd hlt (Nat.lt_irrefl _)
    · intro q hq
      rcases List.mem_cons.mp hq with rfl | hq
      · exact hid ▸ Nat.lt_succ_self _
      · exact (h.fresh q hq).trans (Nat.lt_succ_self _)
    · intro q hq
      rcases List.mem_cons.mp hq with rfl | hq
      · rw [hr]
        exact ⟨hranked raceDay w winners rfl, rfl⟩
      · exact h.prizes q hq
    · refine List.nodup_cons.mpr ⟨?_, h.users⟩
      intro hmem
      obtain ⟨q, hq, heq⟩ := List.mem_map.mp hmem
      obtain ⟨hqday, hquser⟩ := Prod.mk.inj heq
      rw [hr] at hqday hquser
      exact hunpaid q hq hqday hquser
  | _ => exact ⟨h.ledger, h.ids, h.fresh, h.prizes, h.users⟩

/-- Every bet has its player. -/
def Manned (a : State) : Prop :=
  ∀ id bet, a.bets.get id = some bet → (a.users.get bet.userId).isSome = true

theorem isSome_set {userId u : UserId} {user : Player} (h : (a.users.get u).isSome = true) :
    ((a.users.set userId user).get u).isSome = true := by
  rw [Table.get_set]
  split
  · rfl
  · exact h

theorem Manned.step (h : Manned a) (hmoves : Moves a answer call a' rest) : Manned a' := by
  cases hmoves with
  | pays | registers | changes => exact fun id bet hbet => isSome_set (h id bet hbet)
  | places id bet _ huser => exact a.bets.forall_set h huser
  | settles id bet status hget => exact a.bets.forall_set h (h id bet hget)
  | reads | ranks | skips | ends | ticks => exact h

/-- The call takes nothing away that the standings of the day are made of. -/
def Leaves (a : State) (raceDay : Day) : Call → Prop
  | .setBanned userId _ | .convert userId => ∀ bet ∈ a.counted raceDay, bet.userId ≠ userId
  | .settleBet id _ => ∀ bet, a.bets.get id = some bet → dayPeriod bet.createdAt ≠ raceDay
  | _ => True

/-- A change of a bet that is not counted before or after it. -/
theorem counted_set {id : BetId} {bet : Wager}
    (hnew : bet.settled = true → dayPeriod bet.createdAt ≠ raceDay)
    (hold : ∀ old, a.bets.get id = some old → old.settled = false) :
    State.counted { a with bets := a.bets.set id bet } raceDay = a.counted raceDay := by
  refine Table.filter_set a.bets ?_ fun old hget => by simp [hold old hget]
  cases hsettled : bet.settled with
  | false => rfl
  | true => simpa using hnew hsettled

theorem same_set {userId : UserId} {user : Player}
    (h : ∀ bet ∈ a.counted raceDay, bet.userId = userId →
      (a.users.get userId).map Player.standing = some user.standing) :
    Same a { a with users := a.users.set userId user } raceDay := by
  refine ⟨rfl, rfl, fun bet hbet => ?_⟩
  rw [Table.get_set]
  split
  · rename_i hu
    rw [hu, h bet hbet hu]
    rfl
  · rfl

theorem Moves.same (h : Moves a answer call a' rest) (hmanned : Manned a)
    (hleaves : Leaves a raceDay call) : Same a a' raceDay := by
  cases h with
  | reads | ranks | skips | ends | ticks => exact ⟨rfl, rfl, fun _ _ => rfl⟩
  | pays day w winners user r huser =>
    have hstanding : (a.users.get w.userId).map Player.standing = some (Player.standing
        { user with playBalanceLamports := user.playBalanceLamports + r.prizeLamports }) := by
      rw [huser]
      rfl
    obtain ⟨hbots, hcounted, hplayers⟩ := same_set fun _ _ _ => hstanding
    exact ⟨hbots, hcounted, hplayers⟩
  | registers userId user hget =>
    refine same_set fun bet hbet hu => ?_
    obtain ⟨⟨id, hid⟩, -⟩ := mem_counted.mp hbet
    have hsome := hmanned id bet hid
    rw [hu, hget] at hsome
    cases hsome
  | changes userId user user' hget hcall =>
    refine same_set fun bet hbet hu => absurd hu ?_
    rcases hcall with ⟨_, rfl⟩ | rfl
    · exact hleaves bet hbet
    · exact hleaves bet hbet
  | places id bet hfree huser hpending =>
    exact ⟨rfl, counted_set (by simp [hpending]) (by simp [hfree]), fun _ _ => rfl⟩
  | settles id bet status hget hpending =>
    exact ⟨rfl, counted_set (fun _ => hleaves bet hget) (by simp [hget, hpending]),
      fun _ _ => rfl⟩

/-! ## Quiet days -/

variable {s s' : Calls.System State Call} {enforced : Bool} {id : Nat}

/-- What quiet steps keep. -/
structure Kept (enforced : Bool) (s : Calls.System State Call) : Prop where
  booked : Booked s.data
  manned : Manned s.data
  past : ∀ r ∈ s.data.results, r.raceDay ≤ lastCompletedDayPeriod s.data.now
  begun : ∀ id call, s.calls.get id = some call → ∀ raceDay, call.raceDay? = some raceDay →
    raceDay ≤ lastCompletedDayPeriod s.data.now
  /-- what a run has read excludes whom the same query would exclude now -/
  read : ∀ id raceDay exclude, s.calls.get id = some (.topByWindowVolume raceDay exclude) →
    ∀ bet ∈ s.data.counted raceDay,
      exclude.contains bet.userId = s.data.excludedUserIds.contains bet.userId
  listed : ∀ id raceDay winners, s.calls.get id = some (.pay raceDay winners) →
    ∀ w ∈ winners, w ∈ s.data.standings enforced raceDay
  paid : ∀ r ∈ s.data.results, Settling s r.raceDay →
    ∃ w ∈ s.data.standings enforced r.raceDay, w.userId = r.userId ∧ w.rank = r.rank
  ranks : (s.data.results.map fun r => (r.raceDay, r.rank)).Nodup

theorem settling_of_call (hcall : s.calls.get id = some call)
    (hday : call.raceDay? = some raceDay) : Settling s raceDay :=
  .inl ⟨(id, call), s.calls.get_eq_some.mp hcall, hday⟩

theorem leaves_of_quiet (hq : Quiet enforced s (.run id answer))
    (hcall : s.calls.get id = some call) (hs : Settling s raceDay) : Leaves s.data raceDay call := by
  have h := hq call hcall
  cases call with
  | setBanned userId banned | convert userId =>
    intro bet hbet hu
    obtain ⟨⟨i, hi⟩, hsettled, hday⟩ := mem_counted.mp hbet
    exact h (i, bet) (s.data.bets.get_eq_some.mp hi) hu hsettled (hday ▸ hs)
  | settleBet =>
    intro bet hget hday
    exact h bet hget (hday ▸ hs)
  | _ => trivial

/-- A day that is settled after a step of a call was settled before it. -/
theorem settling_before (hk : Kept enforced s) (hcall : s.calls.get id = some call)
    (hmoves : Moves s.data answer call a' rest) (h : Settling ⟨a', s.put id rest⟩ raceDay) :
    Settling s raceDay := by
  rcases h with ⟨⟨j, c⟩, hmem, hday⟩ | ⟨hlast, q, hq, hday⟩
  · obtain ⟨-, rfl⟩ | ⟨-, hold⟩ := Calls.get_put ((s.put id rest).get_eq_some.mpr hmem)
    · exact settling_of_call hcall (hmoves.day.symm.trans hday)
    · exact settling_of_call hold hday
  · obtain hq | ⟨_, w, _, rfl, hd, -⟩ := hmoves.results hq
    · have hpast := hk.past q hq
      have hmono := lastCompletedDay_mono hmoves.now
      rw [hday] at hpast
      exact .inr ⟨le_antisymm hpast (hlast ▸ hmono), q, hq, hday⟩
    · exact settling_of_call hcall (congrArg some (hd.symm.trans hday))

/-- The runs that have read the exclusions rank the players as they are now. -/
theorem standings_of_read {exclude : List UserId}
    (h : ∀ bet ∈ a.counted raceDay,
      exclude.contains bet.userId = a.excludedUserIds.contains bet.userId) :
    a.topByWindowVolume (dayPeriodStartMs raceDay) (dayPeriodStartMs raceDay + DAY_MS)
      RACE.PAYOUT_BPS.length exclude enforced = a.standings enforced raceDay := by
  simp only [State.standings, State.topByWindowVolume, windowBets_eq]
  rw [List.filter_congr fun bet hbet => by rw [h bet hbet]]

theorem Kept.run (hk : Kept enforced s) (hq : Quiet enforced s (.run id answer))
    (hcall : s.calls.get id = some call) (hmoves : Moves s.data answer call a' rest) :
    Kept enforced ⟨a', s.put id rest⟩ := by
  have hmono := lastCompletedDay_mono hmoves.now
  have hsame (raceDay : Day) (h : Settling s raceDay) : Same s.data a' raceDay :=
    hmoves.same hk.manned (leaves_of_quiet hq hcall h)
  have hlisted : ∀ raceDay w winners, call = .pay raceDay (w :: winners) →
      w ∈ s.data.standings enforced raceDay := by
    rintro raceDay w winners rfl
    exact hk.listed id raceDay _ hcall w (List.mem_cons_self ..)
  refine ⟨hk.booked.step hmoves ?_, hk.manned.step hmoves, ?_, ?_, ?_, ?_, ?_, ?_⟩
  · exact fun raceDay w winners heq => topByWindowVolume_rank (hlisted raceDay w winners heq)
  · intro q hmem
    obtain hold | ⟨day, w, winners, rfl, hd, -⟩ := hmoves.results hmem
    · exact (hk.past q hold).trans hmono
    · exact hd ▸ (hk.begun id _ hcall day rfl).trans hmono
  · intro j c hc raceDay hday
    rcases Calls.get_put hc with ⟨-, rfl⟩ | ⟨-, hold⟩
    · exact (hk.begun id call hcall raceDay (hmoves.day.symm.trans hday)).trans hmono
    · exact (hk.begun j c hold raceDay hday).trans hmono
  · intro j raceDay exclude hc bet hbet
    rcases Calls.get_put hc with ⟨-, rfl⟩ | ⟨-, hold⟩
    · cases hmoves
      rfl
    · have h := hsame raceDay (settling_of_call hold rfl)
      rw [h.counted] at hbet
      rw [h.excluded hbet]
      exact hk.read j raceDay exclude hold bet hbet
  · intro j raceDay winners hc w hw
    rcases Calls.get_put hc with ⟨-, rfl⟩ | ⟨-, hold⟩
    · cases hmoves with
      | ranks _ exclude =>
        have henforced : answer.enforced = enforced := hq _ hcall
        rw [henforced, standings_of_read (hk.read id raceDay exclude hcall)] at hw
        exact hw
      | skips _ v _ => exact hk.listed id raceDay _ hcall w (List.mem_cons_of_mem _ hw)
      | pays _ v _ =>
        rw [(hsame raceDay (settling_of_call hcall rfl)).standings]
        exact hk.listed id raceDay _ hcall w (List.mem_cons_of_mem _ hw)
    · rw [(hsame raceDay (settling_of_call hold rfl)).standings]
      exact hk.listed j raceDay winners hold w hw
  · intro q hmem hsettling
    have hbefore := settling_before hk hcall hmoves hsettling
    rw [(hsame _ hbefore).standings]
    obtain hold | ⟨day, w, winners, hpay, rfl, huser, hrank⟩ := hmoves.results hmem
    · exact hk.paid q hold hbefore
    · exact ⟨w, hlisted _ w winners hpay, huser.symm, hrank.symm⟩
  · cases hmoves with
    | pays day w winners user r huser hunpaid hr =>
      refine List.nodup_cons.mpr ⟨?_, hk.ranks⟩
      intro hmem
      obtain ⟨q, hq, heq⟩ := List.mem_map.mp hmem
      obtain ⟨hqday, hqrank⟩ := Prod.mk.inj heq
      rw [hr] at hqday hqrank
      -- the rank was paid from the same standings, so to the same user
      obtain ⟨v, hv, hvuser, hvrank⟩ := hk.paid q hq (hqday ▸ settling_of_call hcall rfl)
      rw [hqday] at hv
      obtain rfl := standings_rank hv (hlisted day w winners rfl) (hvrank.trans hqrank)
      exact hunpaid q hq hqday hvuser.symm
    | _ => exact hk.ranks

/-- Calls that begin or are cut off. -/
theorem Kept.calls {calls : Table Nat Call} (hk : Kept enforced s)
    (h : ∀ id call, calls.get id = some call →
      s.calls.get id = some call ∨ call.isEntry s.data = true) :
    Kept enforced ⟨s.data, calls⟩ := by
  have hentry {call : Call} (he : call.isEntry s.data = true) (raceDay : Day)
      (hday : call.raceDay? = some raceDay) : raceDay = lastCompletedDayPeriod s.data.now := by
    cases call with
    | settleRace =>
      cases hday
      exact beq_iff_eq.mp he
    | topByWindowVolume | pay => cases he
    | _ => cases hday
  refine ⟨hk.booked, hk.manned, hk.past, ?_, ?_, ?_, ?_, hk.ranks⟩
  · intro id call hcall raceDay hday
    obtain hold | he := h id call hcall
    · exact hk.begun id call hold raceDay hday
    · exact (hentry he raceDay hday).le
  · intro id raceDay exclude hcall
    obtain hold | he := h id _ hcall
    · exact hk.read id raceDay exclude hold
    · cases he
  · intro id raceDay winners hcall
    obtain hold | he := h id _ hcall
    · exact hk.listed id raceDay winners hold
    · cases he
  · intro q hq hsettling
    refine hk.paid q hq ?_
    rcases hsettling with ⟨⟨id, call⟩, hmem, hday⟩ | hlast
    · obtain hold | he := h id call (calls.get_eq_some.mpr hmem)
      · exact settling_of_call hold hday
      · exact .inr ⟨hentry he _ hday, q, hq, rfl⟩
    · exact .inr hlast

theorem quiet_step {e : Calls.Event Call Answer} (hk : Kept enforced s) (hq : Quiet enforced s e)
    (h : service.next s e = some s') : Kept enforced s' := by
  cases e with
  | start =>
    obtain ⟨-, hbegins, rfl⟩ := Calls.next_start h
    exact hk.calls (s.calls.forall_set (fun _ _ hold => .inl hold) (.inr hbegins))
  | run =>
    obtain ⟨_, _, _, hcall, hstep, rfl⟩ := Calls.next_run h
    exact hk.run hq hcall (step_moves (Option.some.inj hstep))
  | kill =>
    cases h
    exact hk.calls fun _ _ hcall => .inl (Table.get_of_erase _ hcall)

/-! ## Runs -/

/-- In every state of a run whose days are quiet while they may be settled, each rank of a
day is paid to one user, each user is paid once, and the day pays no more than its pool. -/
theorem race_bounded (enforced : Bool) {demoBotIds : List UserId}
    {es : List (Calls.Event Call Answer)}
    (hok : Along service.next (Quiet enforced) (.boot (.initial demoBotIds)) es)
    (before after : List (Calls.Event Call Answer)) (heq : es = before ++ after)
    (hrun : run service.next (.boot (.initial demoBotIds)) before = some s) :
    Bounded s.data := by
  subst heq
  have hinit : Kept enforced (.boot (.initial demoBotIds)) :=
    ⟨⟨rfl, List.nodup_nil, nofun, nofun, List.nodup_nil⟩, nofun, nofun, nofun, nofun, nofun, nofun,
      List.nodup_nil⟩
  have hk := run_induct (fun _ _ _ hq hk h => quiet_step hk hq h) hinit
    (along_append.mp hok).1 hrun
  exact bounded_of_ranks hk.booked hk.ranks

namespace Sample

def plain : Answer := ⟨true, false⟩

/-- A call that takes the given number of steps. -/
def complete (id : Nat) (call : Call) (steps : Nat) : List (Calls.Event Call Answer) :=
  .start id call :: List.replicate steps (.run id plain)

/-- A bet of the user that is settled. -/
def bet (userId : UserId) (amountLamports : Nat) : List (Calls.Event Call Answer) :=
  complete 1 (.placeBet userId userId amountLamports) 1 ++
    complete 1 (.settleBet userId .lost) 1

/-- Two users play, and the day ends. -/
def day : List (Calls.Event Call Answer) :=
  complete 1 (.register 1) 1 ++ complete 1 (.register 2) 1 ++ bet 1 500 ++ bet 2 300 ++
    complete 1 (.tick (2 * DAY_MS)) 1

/-- The race is settled twice; in between a user is banned that did not play. -/
def settledTwice : List (Calls.Event Call Answer) :=
  complete 1 (.register 3) 1 ++ day ++ complete 1 (.settleRace 1) 5 ++
    complete 1 (.setBanned 3 true) 1 ++ complete 2 (.settleRace 1) 5

/-- Eleven users play, the prizes are paid, and then the winner is banned. -/
def banned : List (Calls.Event Call Answer) :=
  ((List.range 11).flatMap fun userId => complete 1 (.register userId) 1 ++ bet userId 500) ++
    complete 1 (.tick (2 * DAY_MS)) 1 ++ complete 1 (.settleRace 1) 13 ++
    complete 1 (.setBanned 0 true) 1 ++ complete 1 (.settleRace 1) 13

end Sample

theorem race_bounded_sample : ∃ s,
    run service.next (.boot (.initial [])) Sample.settledTwice = some s ∧
      s.data.ledger = [⟨2, 10000000000, 1⟩, ⟨1, 15000000000, 0⟩] ∧ Bounded s.data := by
  obtain ⟨s, hs, hledger⟩ : ∃ s,
      run service.next (.boot (.initial [])) Sample.settledTwice = some s ∧
      s.data.ledger = [⟨2, 10000000000, 1⟩, ⟨1, 15000000000, 0⟩] := by decide +kernel
  exact ⟨s, hs, hledger, race_bounded true (by decide +kernel) Sample.settledTwice []
    (List.append_nil _).symm hs⟩

/-- The last rank is paid to two users, and the day to 51 SOL. -/
theorem pool_exceeded : ∃ s,
    run service.next (.boot (.initial [])) Sample.banned = some s ∧
      s.data.paidFor 1 = 51 * LAMPORTS_PER_SOL ∧ ¬ Bounded s.data := by
  obtain ⟨s, hs, hpaid⟩ : ∃ s, run service.next (.boot (.initial [])) Sample.banned = some s ∧
      s.data.paidFor 1 = 51 * LAMPORTS_PER_SOL := by decide +kernel
  refine ⟨s, hs, hpaid, ?_⟩
  intro h
  have hle := h.total 1
  rw [hpaid] at hle
  exact absurd hle (by decide)

end Scadium.Leaderboard
