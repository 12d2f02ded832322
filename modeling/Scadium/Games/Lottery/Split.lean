/-
Scadium.Games.Lottery.Split — what a lottery draw does with its pool.

The winners of each bracket are counted from the tickets, each ticket is paid
the share of its bracket, and the results are written to the ticket rows, one
update for each distinct result. So the prizes on the rows, the burn and the
next rollover make up the pool.
-/
import Scadium.Games.Lottery.Rollover

namespace Scadium.Games.Lottery

open Scadium.Lib Scadium.Prisma Scadium.Fair Scadium.Shared

variable {deps : Deps} {inp : SettleInput} {env : SettleEnv} {tickets : List TicketWithUser}

/-! ## The winners of a bracket -/

theorem countBracket_getD (counts : List Nat) (bracket : Option Nat) {b : Nat}
    (h : b < counts.length) : (countBracket counts bracket).getD b 0 =
      counts.getD b 0 + if bracket = some b then 1 else 0 := by
  cases bracket with
  | none => simp [countBracket]
  | some c =>
    by_cases hc : c = b
    · subst hc
      simp [countBracket, List.getD_eq_getElem?_getD, h]
    · simp [countBracket, List.getD_eq_getElem?_getD, hc]

theorem length_countBracket (counts : List Nat) (bracket : Option Nat) :
    (countBracket counts bracket).length = counts.length := by
  cases bracket with
  | none => rfl
  | some => simp [countBracket]

theorem foldl_countBracket (brackets : List (Option Nat)) (counts : List Nat) {b : Nat}
    (h : b < counts.length) : (brackets.foldl countBracket counts).getD b 0 =
      counts.getD b 0 + brackets.count (some b) := by
  induction brackets generalizing counts with
  | nil => simp
  | cons bracket brackets ih =>
    have hlength : b < (countBracket counts bracket).length := by
      rw [length_countBracket]
      exact h
    rw [List.foldl_cons, ih _ hlength, countBracket_getD _ _ h, List.count_cons]
    simp only [beq_iff_eq]
    omega

/-- A bracket's count is the number of the tickets in it. -/
theorem winnerCounts_getD (inp : SettleInput) (tickets : List TicketWithUser) {b : Nat}
    (h : b < LOTTERY.BRACKET_COUNT) : (winnerCounts inp tickets).getD b 0 =
      (tickets.map (bracketOf inp)).count (some b) := by
  rw [winnerCounts, foldl_countBracket _ _ (by simpa using h)]
  simp [List.getD_eq_getElem?_getD, h]

/-! ## The prizes -/

/-- What a settlement pays to a bracket. -/
def payoutOf {α : Type} [OfNat α 0] (perWinner : List α) : Option Nat → α
  | some b => perWinner.getD b 0
  | none => 0

theorem resultOf_payout (prizes : Fair.BracketSettlement) (t : TicketWithUser) :
    (resultOf deps inp prizes t).payoutScadBase =
      payoutOf prizes.perWinner (bracketOf inp t) := by
  cases h : bracketOf inp t with
  | none | some => simp [resultOf, payoutOf, h]

/-- Of the brackets, one counts. -/
theorem sum_range_single {n c : Nat} (h : c < n) (f : Nat → Nat) :
    ((List.range n).map fun b => if c = b then f b else 0).sum = f c := by
  calc ((List.range n).map fun b => if c = b then f b else 0).sum
      = ∑ b ∈ Finset.range n, if c = b then f b else 0 := rfl
    _ = f c := by simp [h]

/-- A sum over keyed items is the sum over the keys, each as often as it
comes up. -/
theorem sum_by_key {n : Nat} (f : Nat → Nat) (keys : List (Option Nat))
    (h : ∀ b, some b ∈ keys → b < n) : (keys.map fun k => k.elim 0 f).sum =
      ((List.range n).map fun b => f b * keys.count (some b)).sum := by
  induction keys with
  | nil => simp
  | cons k keys ih =>
    have hrest := ih fun b hb => h b (List.mem_cons_of_mem _ hb)
    cases k with
    | none => simp [hrest]
    | some c =>
      have hc : c < n := h c (by simp)
      rw [List.map_cons, List.sum_cons, hrest, Option.elim_some, ← sum_range_single hc f,
        ← List.sum_map_add]
      refine congrArg List.sum (List.map_congr_left fun b _ => ?_)
      by_cases hcb : c = b
      · subst hcb
        simp [Nat.mul_add, Nat.add_comm]
      · simp [hcb]

theorem bracketOf_lt {t : TicketWithUser} {b : Nat} (h : bracketOf inp t = some b) :
    b < LOTTERY.BRACKET_COUNT :=
  (lotteryBracket_some.mp h).1

/-- The tickets get what the brackets pay. -/
theorem sum_payouts (pool : Nat) :
    (tickets.map fun t => payoutOf (splitBracketPrizes pool (winnerCounts inp tickets)).perWinner
      (bracketOf inp t)).sum =
      (splitBracketPrizes pool (winnerCounts inp tickets)).paid (winnerCounts inp tickets) := by
  have hlt : ∀ b, some b ∈ tickets.map (bracketOf inp) → b < LOTTERY.BRACKET_COUNT := by
    intro b hb
    obtain ⟨t, -, ht⟩ := List.mem_map.mp hb
    exact bracketOf_lt ht
  have hsum := sum_by_key
    (fun b => (splitBracketPrizes pool (winnerCounts inp tickets)).perWinner.getD b 0)
    (tickets.map (bracketOf inp)) hlt
  rw [List.map_map] at hsum
  refine Eq.trans (congrArg List.sum (List.map_congr_left fun t _ => ?_)) (hsum.trans ?_)
  · cases h : bracketOf inp t with
    | none | some => simp [payoutOf, h]
  · refine congrArg List.sum (List.map_congr_left fun b hb => ?_)
    rw [winnerCounts_getD _ _ (List.mem_range.mp hb)]

/-! ## The rows of the tickets -/

/-- What the updates of the tickets write to the row of a ticket: the prize of
its group. -/
theorem updateManyTickets_prize {group : TicketGroup} {ids : List EntryId} {db : Db}
    {t : LotteryTicket} (h : t ∈ (updateManyTickets group ids db).lotteryTickets) :
    ∃ old ∈ db.lotteryTickets, t.id = old.id ∧
      t.payoutScadBase = if old.id ∈ ids then group.payoutScadBase else old.payoutScadBase := by
  obtain ⟨old, hold, rfl⟩ := List.mem_map.mp h
  refine ⟨old, hold, ?_⟩
  by_cases hmem : old.id ∈ ids
  · simp [hmem]
  · simp [hmem]

/-- Every entry of a group has its prize. -/
def Agrees (value : EntryId → Nat) (group : TicketGroup) : Prop :=
  ∀ id ∈ group.ids, value id = group.payoutScadBase

/-- The rows that are through carry their prizes. -/
def Recorded (value : EntryId → Nat) (ids : List EntryId) (db : Db) : Prop :=
  ∀ t ∈ db.lotteryTickets, t.id ∈ ids → t.payoutScadBase = value t.id

theorem Recorded.update {value : EntryId → Nat} {group : TicketGroup} {past ids : List EntryId}
    {db : Db} (h : Recorded value past db) (hids : ∀ id ∈ ids, value id = group.payoutScadBase) :
    Recorded value (past ++ ids) (updateManyTickets group ids db) := by
  intro t ht hmem
  obtain ⟨old, hold, hid, hpayout⟩ := updateManyTickets_prize ht
  rw [hid] at hmem ⊢
  rw [hpayout]
  split
  · rename_i hin
    exact (hids _ hin).symm
  · rename_i hout
    exact h old hold ((List.mem_append.mp hmem).resolve_right hout)

variable {s t : TxState Captured Db TxError} {u : Unit}

theorem updateGroup_recorded {value : EntryId → Nat} {group : TicketGroup}
    {past : List EntryId} (hgroup : Agrees value group) (h : Recorded value past s.db)
    (hrun : (updateGroup group).run s = .ok u t) :
    Recorded value (past ++ group.ids) t.db := by
  have hslices : ∀ ids ∈ slices group.ids, ∀ id ∈ ids, id ∈ group.ids := by
    intro ids hids id hid
    rw [← flatten_slices group.ids]
    exact List.mem_flatten.mpr ⟨ids, hids, hid⟩
  have hall := Tx.each_prefix
    (P := fun through t => Recorded value (past ++ through.flatten) t.db) ?_ hrun (by simpa using h)
  · rwa [flatten_slices] at hall
  · intro through ids s u t hids hb hP
    rw [(Tx.update_ok hb).1, List.flatten_concat, ← List.append_assoc]
    exact hP.update fun id hid => hgroup id (hslices ids hids id hid)

theorem updateGroups_recorded {value : EntryId → Nat} {groups : List TicketGroup}
    (hgroups : ∀ g ∈ groups, Agrees value g)
    (hrun : (Tx.each updateGroup groups).run s = .ok u t) :
    Recorded value (groups.flatMap (·.ids)) t.db := by
  refine Tx.each_prefix
    (P := fun through t => Recorded value (through.flatMap (·.ids)) t.db) ?_ hrun
    (fun _ _ hmem => by simp at hmem)
  intro through group s u t hgroup hb hP
  rw [List.flatMap_append, List.flatMap_singleton]
  exact updateGroup_recorded (hgroups group hgroup) hP hb

/-! ## The groups -/

abbrev ResultKey := Nat × Option Nat × Nat × Bool

/-- What distinguishes two results. -/
def resultKey (r : TicketResult) : ResultKey :=
  (r.matchLen, r.bracket, r.payoutScadBase, r.won)

theorem foldl_addId (rs : List TicketResult) (g : TicketGroup) :
    rs.foldl (fun g r => some (addId g r)) (some g) =
      some { g with ids := g.ids ++ rs.map (·.ticket.id) } := by
  induction rs generalizing g with
  | nil => simp
  | cons r rs ih =>
    rw [List.foldl_cons, ih]
    simp [addId]

/-- A group has the tickets of its key, and their prize. -/
theorem group_spec {results : List TicketResult} {g : ResultKey × TicketGroup}
    (hg : g ∈ groupBy resultKey addId results) :
    g.2.payoutScadBase = g.1.2.2.1 ∧
      g.2.ids = (results.filter (resultKey · = g.1)).map (·.ticket.id) := by
  have hfold := groupBy_fold resultKey addId results g hg
  cases hrows : results.filter (resultKey · = g.1) with
  | nil =>
    rw [hrows] at hfold
    cases hfold
  | cons r rs =>
    have hkey : resultKey r = g.1 := of_decide_eq_true
      (List.mem_filter.mp (hrows ▸ List.mem_cons_self .. : r ∈ results.filter _)).2
    rw [hrows, List.foldl_cons, foldl_addId] at hfold
    rw [← Option.some.inj hfold, ← hkey]
    exact ⟨rfl, by simp [addId]⟩

/-- The prize of a ticket, by its id. -/
def prizeOf (results : List TicketResult) (id : EntryId) : Nat :=
  match results.find? (·.ticket.id = id) with
  | some r => r.payoutScadBase
  | none => 0

theorem prizeOf_mem {results : List TicketResult} (h : (results.map (·.ticket.id)).Nodup)
    {r : TicketResult} (hr : r ∈ results) : prizeOf results r.ticket.id = r.payoutScadBase := by
  cases hfind : results.find? (·.ticket.id = r.ticket.id) with
  | none =>
    have hnone := List.find?_eq_none.mp hfind r hr
    simp at hnone
  | some r' =>
    have hid : r'.ticket.id = r.ticket.id := by simpa using List.find?_some hfind
    have heq : r' = r := List.inj_on_of_nodup_map h (List.mem_of_find?_eq_some hfind) hr hid
    simp [prizeOf, hfind, heq]

/-- The updates of the tickets write each ticket's prize to its row. -/
theorem ticketUpdates_recorded {results : List TicketResult}
    (h : (results.map (·.ticket.id)).Nodup)
    (hrun : (Tx.each updateGroup (ticketUpdates results)).run s = .ok u t) :
    Recorded (prizeOf results) (results.map (·.ticket.id)) t.db := by
  have hagrees : ∀ g ∈ ticketUpdates results, Agrees (prizeOf results) g := by
    intro g hg id hid
    obtain ⟨e, he, rfl⟩ := List.mem_map.mp hg
    obtain ⟨hprize, hids⟩ := group_spec he
    rw [hids] at hid
    obtain ⟨r, hr, rfl⟩ := List.mem_map.mp hid
    obtain ⟨hr, hkey⟩ := List.mem_filter.mp hr
    rw [prizeOf_mem h hr, hprize, ← of_decide_eq_true hkey]
    rfl
  intro row hrow hid
  obtain ⟨r, hr, hrid⟩ := List.mem_map.mp hid
  have hmem : resultKey r ∈ (groupBy resultKey addId results).map Prod.fst :=
    mem_keys_groupBy.mpr ⟨r, hr, rfl⟩
  obtain ⟨g, hg, hkey⟩ := List.mem_map.mp hmem
  refine updateGroups_recorded hagrees hrun row hrow (List.mem_flatMap.mpr ⟨g.2, ?_, ?_⟩)
  · exact List.mem_map_of_mem hg
  · rw [(group_spec hg).2, ← hrid, hkey]
    exact List.mem_map_of_mem (List.mem_filter.mpr ⟨hr, decide_eq_true rfl⟩)

/-! ## The draw as a whole -/

/-- The prizes on the rows of a draw. -/
def prizes (drawId : RoundId) (db : Db) : List Nat :=
  (db.lotteryTickets.filter (·.drawId = drawId)).map (·.payoutScadBase)

theorem ids_ticketResults (drawId : RoundId) (db : Db) (prize : Fair.BracketSettlement) :
    ((findTickets drawId db).map (resultOf deps inp prize)).map (·.ticket.id) =
      (db.lotteryTickets.filter (·.drawId = drawId)).map (·.id) := by
  simp [findTickets, List.map_map, Function.comp_def, resultOf]

theorem ids_of_keys {db db' : Db} (h : ticketKeys db' = ticketKeys db) (drawId : RoundId) :
    (db'.lotteryTickets.filter (·.drawId = drawId)).map (·.id) =
      (db.lotteryTickets.filter (·.drawId = drawId)).map (·.id) := by
  have hkeys : ∀ db : Db, (db.lotteryTickets.filter (·.drawId = drawId)).map (·.id) =
      ((ticketKeys db).filter (·.1 = drawId)).map Prod.snd := by
    intro db
    simp [ticketKeys, List.filter_map, List.map_map, Function.comp_def]
  rw [hkeys, hkeys, h]

/-- The writes of a settle, up to those of the tickets and after them. -/
theorem writeResults_recorded {results : List TicketResult}
    (h : (results.map (·.ticket.id)).Nodup)
    (hrun : (writeResults deps inp env results).run s = .ok u t) :
    Recorded (prizeOf results) (results.map (·.ticket.id)) t.db := by
  obtain ⟨_, _, _, hrun⟩ := Tx.bind_eq_ok.mp hrun
  obtain ⟨_, _, _, hrun⟩ := Tx.bind_eq_ok.mp hrun
  obtain ⟨_, _, _, hrun⟩ := Tx.bind_eq_ok.mp hrun
  obtain ⟨_, _, hgroups, hrun⟩ := Tx.bind_eq_ok.mp hrun
  obtain ⟨_, _, hinserts, hreveal⟩ := Tx.bind_eq_ok.mp hrun
  have hrecorded := ticketUpdates_recorded h hgroups
  have hinsert : ∀ rows, Tx.Keeps Db.lotteryTickets
      (Tx.update (createManyBets rows) : DbTx Captured Unit) := fun rows => .update fun _ => rfl
  have hbets := Tx.Keeps.each hinsert _ _ _ _ hinserts
  have hseeds := revealSeed_keeps (p := Db.lotteryTickets) (fun _ _ => rfl) _ _ _ hreveal
  intro row hrow
  rw [hseeds, hbets] at hrow
  exact hrecorded row hrow

/-- A settle that committed recorded on each ticket what its bracket pays. -/
theorem settleTx_prizes (hrun : (settleTx deps inp env).run s = .ok u t)
    (hids : (s.db.lotteryTickets.map (·.id)).Nodup) :
    prizes inp.drawId t.db =
      (findTickets inp.drawId s.db).map fun tk =>
        payoutOf (prizesOf inp (findTickets inp.drawId s.db)).perWinner (bracketOf inp tk) := by
  obtain ⟨-, hsettled⟩ := settleTx_ok hrun
  obtain ⟨-, _, _, -, -, -, hwrite⟩ := settleTx_claimed hrun
  have hrows := ids_of_keys hsettled.keys inp.drawId
  have hdraw : ((ticketResults deps inp (findTickets inp.drawId s.db)).map (·.ticket.id)) =
      (s.db.lotteryTickets.filter (·.drawId = inp.drawId)).map (·.id) :=
    ids_ticketResults _ _ _
  have hnodup : ((ticketResults deps inp (findTickets inp.drawId s.db)).map
      (·.ticket.id)).Nodup := by
    rw [hdraw]
    exact hids.sublist (List.filter_sublist.map _)
  have hrecorded := writeResults_recorded hnodup hwrite
  have hprize : ∀ tk ∈ t.db.lotteryTickets.filter (·.drawId = inp.drawId),
      tk.payoutScadBase =
        prizeOf (ticketResults deps inp (findTickets inp.drawId s.db)) tk.id := by
    intro tk htk
    refine hrecorded tk (List.mem_of_mem_filter htk) ?_
    rw [hdraw, ← hrows]
    exact List.mem_map_of_mem htk
  calc prizes inp.drawId t.db
      = ((t.db.lotteryTickets.filter (·.drawId = inp.drawId)).map (·.id)).map
          (prizeOf (ticketResults deps inp (findTickets inp.drawId s.db))) := by
        rw [List.map_map]
        exact List.map_congr_left hprize
    _ = ((ticketResults deps inp (findTickets inp.drawId s.db)).map (·.ticket.id)).map
          (prizeOf (ticketResults deps inp (findTickets inp.drawId s.db))) := by
        rw [hrows, hdraw]
    _ = (ticketResults deps inp (findTickets inp.drawId s.db)).map (·.payoutScadBase) := by
        rw [List.map_map]
        exact List.map_congr_left fun r hr => prizeOf_mem hnodup hr
    _ = _ := by
        rw [ticketResults, List.map_map]
        exact List.map_congr_left fun tk _ => resultOf_payout _ tk

/-- What a ticket is paid out of a pool. -/
def prizeAt (inp : SettleInput) (tickets : List TicketWithUser) (pool : Int)
    (t : TicketWithUser) : Int :=
  payoutOf (BigInt.splitBracketPrizes pool (winnerCounts inp tickets)).perWinner (bracketOf inp t)

/-- The bracket of a ticket, by its digits: `b + 1` of them are those of the
draw, left to right, and not one more. -/
def Highest (inp : SettleInput) (t : TicketWithUser) (b : Nat) : Prop :=
  b < LOTTERY.BRACKET_COUNT ∧ Agree t.ticket.digits inp.digits (b + 1) ∧
    (b + 1 < LOTTERY.BRACKET_COUNT → ¬ Agree t.ticket.digits inp.digits (b + 2))

theorem bracketOf_some {t : TicketWithUser} {b : Nat} :
    bracketOf inp t = some b ↔ Highest inp t b :=
  lotteryBracket_some

theorem bracketOf_none {t : TicketWithUser} :
    bracketOf inp t = none ↔ ¬ Agree t.ticket.digits inp.digits 1 :=
  lotteryBracket_none

/-- A pool is split without a loss, each ticket paid by its bracket alone. -/
structure SplitsExactly (inp : SettleInput) (tickets : List TicketWithUser) (pool : Int)
    (split : BigInt.BracketSettlement) : Prop where
  exact : split.burn + (tickets.map (prizeAt inp tickets pool)).sum + split.nextRollover = pool
  burn : 0 ≤ split.burn
  nextRollover : 0 ≤ split.nextRollover
  bracketSlices : ∀ x ∈ split.bracketSlices, 0 ≤ x
  perWinner : ∀ x ∈ split.perWinner, 0 ≤ x
  bracketRollover : ∀ x ∈ split.bracketRollover, 0 ≤ x
  prize : ∀ t ∈ tickets, 0 ≤ prizeAt inp tickets pool t
  /-- the slice of the bracket, over the tickets in it -/
  highest : ∀ t ∈ tickets, ∀ b, Highest inp t b → prizeAt inp tickets pool t =
    split.bracketSlices.getD b 0 / (tickets.map (bracketOf inp)).count (some b)
  unmatched : ∀ t ∈ tickets, ¬ Agree t.ticket.digits inp.digits 1 →
    prizeAt inp tickets pool t = 0
  equal : ∀ t ∈ tickets, ∀ t' ∈ tickets, ∀ b, Highest inp t b → Highest inp t' b →
    prizeAt inp tickets pool t = prizeAt inp tickets pool t'
  unwon : ∀ b < LOTTERY.BRACKET_COUNT, (∀ t ∈ tickets, ¬ Highest inp t b) →
    split.perWinner.getD b 0 = 0

theorem prizeAt_natCast (inp : SettleInput) (tickets : List TicketWithUser) (pool : Nat)
    (t : TicketWithUser) : prizeAt inp tickets pool t =
      (payoutOf (splitBracketPrizes pool (winnerCounts inp tickets)).perWinner
        (bracketOf inp t) : Nat) := by
  rw [prizeAt, splitBracketPrizes_natCast]
  cases bracketOf inp t with
  | none => rfl
  | some => exact getD_map_natCast _ _

theorem splitsExactly (inp : SettleInput) (tickets : List TicketWithUser) (pool : Nat) :
    SplitsExactly inp tickets pool
      (BigInt.splitBracketPrizes pool (winnerCounts inp tickets)) where
  exact := by
    have hexact := split_exact pool (winnerCounts inp tickets)
    rw [← sum_payouts] at hexact
    have hcast : tickets.map (prizeAt inp tickets pool) = (tickets.map fun t =>
        payoutOf (splitBracketPrizes pool (winnerCounts inp tickets)).perWinner
          (bracketOf inp t)).map ((↑) : Nat → Int) := by
      rw [List.map_map]
      exact List.map_congr_left fun t _ => prizeAt_natCast inp tickets pool t
    rw [hcast, ← Nat.cast_list_sum]
    simp only [splitBracketPrizes_natCast, BigInt.ofNat]
    exact_mod_cast hexact
  burn := by simp [splitBracketPrizes_natCast, BigInt.ofNat]
  nextRollover := by simp [splitBracketPrizes_natCast, BigInt.ofNat]
  bracketSlices := by simp [splitBracketPrizes_natCast, BigInt.ofNat]
  perWinner := by simp [splitBracketPrizes_natCast, BigInt.ofNat]
  bracketRollover := by simp [splitBracketPrizes_natCast, BigInt.ofNat]
  prize := by simp [prizeAt_natCast]
  highest := by
    intro t ht b hb
    have hbracket := bracketOf_some.mpr hb
    have hmem : some b ∈ tickets.map (bracketOf inp) := hbracket ▸ List.mem_map_of_mem ht
    have hcount := List.count_pos_iff.mpr hmem
    simp only [prizeAt_natCast, splitBracketPrizes_natCast, BigInt.ofNat, getD_map_natCast,
      hbracket, payoutOf]
    rw [perWinner_getD _ _ hb.1, winnerCounts_getD _ _ hb.1, if_pos hcount]
    simp [splitBracketPrizes]
  unmatched := by
    intro t _ hnone
    simp [prizeAt, bracketOf_none.mpr hnone, payoutOf]
  equal := by
    intro t _ t' _ b hb hb'
    simp only [prizeAt, bracketOf_some.mpr hb, bracketOf_some.mpr hb']
  unwon := by
    intro b hb hnone
    have hcount : (tickets.map (bracketOf inp)).count (some b) = 0 := by
      rw [List.count_eq_zero]
      intro hmem
      obtain ⟨t, ht, hbracket⟩ := List.mem_map.mp hmem
      exact hnone t ht (bracketOf_some.mp hbracket)
    simp only [splitBracketPrizes_natCast, BigInt.ofNat, getD_map_natCast]
    rw [perWinner_getD _ _ hb, winnerCounts_getD _ _ hb, hcount]
    rfl

/-- What a settle left behind: the row of the draw, the prizes on the rows of
its tickets, and the rollover it hands on. -/
structure RecordsSplit (inp : SettleInput) (before after : Db) (nextRollover : Nat) : Prop where
  prizes : (prizes inp.drawId after).map (↑) =
    (findTickets inp.drawId before).map (prizeAt inp (findTickets inp.drawId before)
      (poolOf inp (findTickets inp.drawId before)))
  row : ∃ row, after.lotteryDraws inp.drawId = some row ∧
    row.totalPoolScadBase = poolOf inp (findTickets inp.drawId before) ∧
    row.burnScadBase + (Lottery.prizes inp.drawId after).sum + nextRollover =
      row.totalPoolScadBase

theorem settleTx_records (hrun : (settleTx deps inp env).run s = .ok u t)
    (hids : (s.db.lotteryTickets.map (·.id)).Nodup) :
    RecordsSplit inp s.db t.db t.vars.nextRollover := by
  obtain ⟨-, hsettled⟩ := settleTx_ok hrun
  obtain ⟨_, -, -, hrow⟩ := hsettled.claimed
  have hprizes := settleTx_prizes hrun hids
  refine ⟨?_, _, by rw [hrow, Function.update_self], rfl, ?_⟩
  · rw [hprizes, List.map_map]
    exact List.map_congr_left fun tk _ => (prizeAt_natCast _ _ _ tk).symm
  · rw [hprizes, settleTx_rollover hrun]
    simp only [prizesOf, drawnRow]
    rw [sum_payouts]
    exact split_exact _ _

/-- The pool of a draw is burnt, paid out and rolled over, to the unit; each
ticket is paid by its highest bracket alone; and a settle records just that. -/
theorem value_split_exact (deps : Deps) (inp : SettleInput) (env : SettleEnv)
    (tickets : List TicketWithUser) {pool : Int} (hpool : 0 ≤ pool) :
    SplitsExactly inp tickets pool
      (BigInt.splitBracketPrizes pool (winnerCounts inp tickets)) ∧
    ∀ s t u, (settleTx deps inp env).run s = .ok u t →
      (s.db.lotteryTickets.map (·.id)).Nodup →
      RecordsSplit inp s.db t.db t.vars.nextRollover := by
  constructor
  · obtain ⟨n, rfl⟩ := Int.eq_ofNat_of_zero_le hpool
    exact splitsExactly inp tickets n
  · intro s t u hrun hids
    exact settleTx_records hrun hids

namespace Sample

def input : SettleInput where
  drawId := 7
  drawIndex := 1
  seedId := 3
  serverSeed := "seed"
  serverSeedHash := "hash"
  clientSeed := "client"
  nonce := 1
  injectionScadBase := 1000
  rolloverScadBase := 777
  digits := [1, 2, 3, 4, 5, 6]
  slotHash := 0
  fairness := "drand-quicknet"
  beaconRound := some 1
  revealTxSignature := none
  lotteryEnabled := true

def ticket (id : EntryId) (digits : List Nat) : LotteryTicket where
  id := id
  drawId := 7
  userId := 1
  digits := digits
  costLamports := 5
  costScadBase := 100
  payoutLamports := 0
  payoutScadBase := 0
  matchLen := 0
  bracket := none
  won := false

/-- Two tickets share a bracket, one has all digits, and one has the first
digit wrong. -/
def sold : Db :=
  { Db.empty with
    users := fun u => if u = 1 then some
      ⟨none, "wallet", false, none, none, none, fun _ => 0, 0, 0, 0, 0, 0⟩ else none
    seeds := fun id => if id = 3 then some ⟨"hash", "seed", "client", none⟩ else none
    lotteryDraws := fun id => if id = 7 then some
      ⟨1, 3, 1, .open, 1000, 777, [], none, none, none, 0, 0, [], [], [], none, none⟩ else none
    lotteryTickets := [ticket 1 [1, 2, 0, 4, 5, 6], ticket 2 [1, 2, 9, 9, 9, 9],
      ticket 3 [1, 2, 3, 4, 5, 6], ticket 4 [0, 2, 3, 4, 5, 6]] }

def splitDeps : Deps where
  sha := ⟨fun _ => 0, fun _ _ => 0⟩
  economyEnforced := false
  publicPlayerId _ := "player"
  referralCommission _ _ _ := 0
  scadBaseToLamports scadBase := scadBase
  periodKeys _ := ("day", "week")

def splitEnv : SettleEnv := ⟨true, 1, fun n => n⟩

/-- The prizes a settle of `sold` leaves on the rows. -/
def soldPrizes : Option (List Nat) :=
  match (settleTx splitDeps input splitEnv).run ⟨.init, sold, none⟩ with
  | .ok _ t => some (prizes 7 t.db)
  | .error _ _ => none

theorem soldPrizes_eq : soldPrizes = some [32, 32, 871, 0] := by
  decide +kernel

end Sample

theorem value_split_exact_sold : ∃ t,
    (settleTx Sample.splitDeps Sample.input Sample.splitEnv).run ⟨.init, Sample.sold, none⟩ =
      .ok () t ∧ prizes 7 t.db = [32, 32, 871, 0] ∧
    SplitsExactly Sample.input (findTickets 7 Sample.sold) (2177 : Nat)
      (BigInt.splitBracketPrizes (2177 : Nat)
        (winnerCounts Sample.input (findTickets 7 Sample.sold))) ∧
    RecordsSplit Sample.input Sample.sold t.db t.vars.nextRollover := by
  have hprizes := Sample.soldPrizes_eq
  obtain ⟨hsplit, hrecords⟩ := value_split_exact Sample.splitDeps Sample.input Sample.splitEnv
    (findTickets 7 Sample.sold) (Int.natCast_nonneg 2177)
  unfold Sample.soldPrizes at hprizes
  split at hprizes
  · rename_i u t hrun
    exact ⟨t, hrun, Option.some.inj hprizes, hsplit, hrecords _ _ _ hrun (by decide)⟩
  · cases hprizes

end Scadium.Games.Lottery
