/-
Scadium.Games.LateEntry — no entry of the jackpot and no ticket of the
lottery is orphaned.

The entry transactions and the settle transactions run one after the other
in any order, each committing as a whole or leaving nothing; this is the
atomicity that the row lock on the round row provides. (The demo bots of a
development setup enter by a path of their own, which is not part of it.)
Each entry is
conditional on the round row being open, and each settle reads the entries
in the transaction that claims the row. Seen through `stakes`, `closedRounds`
and the committed settles, the database is a system of pools (`Lib.Pool`).
-/
import Scadium.Games.Jackpot.Enter
import Scadium.Games.Jackpot.SettleTheorems
import Scadium.Games.Lottery.Buy
import Scadium.Lib.Pool

namespace Scadium.Games.LateEntry

open Scadium.Lib Scadium.Prisma

/-! ## The system -/

/-- A committed settle: what it ran with, and the database before and after. -/
inductive Settlement where
  | jackpot (inp : Jackpot.SettleInput) (env : Jackpot.SettleEnv) (before after : Db)
  | lottery (inp : Lottery.SettleInput) (env : Lottery.SettleEnv) (before after : Db)

structure State where
  db : Db
  settlements : List Settlement

/-- One transaction, by any caller, that the environment may abort. A settle
is any pass of any leader: the timer, the watchdog, a retry, a recovery. -/
inductive Event where
  | enter (call : Jackpot.EnterCall) (env : Jackpot.EnterEnv) (failAt : Option (Nat × TxError))
  | buy (call : Lottery.BuyCall) (env : Lottery.BuyEnv) (failAt : Option (Nat × TxError))
  | settleJackpot (inp : Jackpot.SettleInput) (env : Jackpot.SettleEnv)
      (vars : Jackpot.Captured) (failAt : Option (Nat × TxError))
  | settleLottery (inp : Lottery.SettleInput) (env : Lottery.SettleEnv)
      (vars : Lottery.Captured) (failAt : Option (Nat × TxError))

/-- The state after a settle that ended with `result`. -/
def State.settle {α : Type} (st : State) (settlement : Db → Db → Settlement) :
    Except TxError (α × Db) → State
  | .ok (_, db') => ⟨db', settlement st.db db' :: st.settlements⟩
  | .error _ => st

def step (deps : Deps) (st : State) : Event → Option State
  | .enter call env failAt =>
      let result := (Tx.transact (Jackpot.enterTx deps call env) () st.db failAt).2
      some { st with db := Tx.dbAfter st.db result }
  | .buy call env failAt =>
      let result := (Tx.transact (Lottery.buyTx deps call env) () st.db failAt).2
      some { st with db := Tx.dbAfter st.db result }
  | .settleJackpot inp env vars failAt =>
      let result := (Tx.transact (Jackpot.settleTx deps inp env) vars st.db failAt).2
      some (st.settle (.jackpot inp env) result)
  | .settleLottery inp env vars failAt =>
      let result := (Tx.transact (Lottery.settleTx deps inp env) vars st.db failAt).2
      some (st.settle (.lottery inp env) result)

/-! ## Its pools -/

/-- A round of a pooled game. -/
abbrev Pot := PooledGame × RoundId

/-- An entry or a ticket: its round and its id. -/
abbrev Stake := Pot × EntryId

/-- The rounds whose row is terminal. -/
def closedRounds (db : Db) : Set Pot
  | (.jackpot, r) => ∃ row, db.jackpotRounds r = some row ∧ row.status ≠ .open
  | (.lottery, r) => ∃ row, db.lotteryDraws r = some row ∧ row.status ≠ .open

/-- The entries and tickets in the tables. -/
def stakes (db : Db) : Set Stake
  | ((.jackpot, r), i) => ∃ e ∈ db.jackpotEntries, e.roundId = r ∧ e.id = i
  | ((.lottery, r), i) => (r, i) ∈ Lottery.ticketKeys db

@[simp] theorem mem_closedRounds_jackpot {db : Db} {r : RoundId} :
    (.jackpot, r) ∈ closedRounds db ↔
      ∃ row, db.jackpotRounds r = some row ∧ row.status ≠ .open := Iff.rfl

@[simp] theorem mem_closedRounds_lottery {db : Db} {r : RoundId} :
    (.lottery, r) ∈ closedRounds db ↔
      ∃ row, db.lotteryDraws r = some row ∧ row.status ≠ .open := Iff.rfl

@[simp] theorem mem_stakes_jackpot {db : Db} {r : RoundId} {i : EntryId} :
    ((.jackpot, r), i) ∈ stakes db ↔
      ∃ e ∈ db.jackpotEntries, e.roundId = r ∧ e.id = i := Iff.rfl

@[simp] theorem mem_stakes_lottery {db : Db} {r : RoundId} {i : EntryId} :
    ((.lottery, r), i) ∈ stakes db ↔ (r, i) ∈ Lottery.ticketKeys db := Iff.rfl

def Settlement.pot : Settlement → Pot
  | .jackpot inp _ _ _ => (.jackpot, inp.roundId)
  | .lottery inp _ _ _ => (.lottery, inp.drawId)

/-- The entries or tickets the settle read. -/
def Settlement.covered : Settlement → Set Stake
  | .jackpot inp _ before _ =>
      {m | ∃ e ∈ Jackpot.roundEntries inp.roundId before, m = ((.jackpot, inp.roundId), e.id)}
  | .lottery inp _ before _ =>
      {m | ∃ t ∈ Lottery.findTickets inp.drawId before, m = ((.lottery, inp.drawId), t.ticket.id)}

def pools (st : State) : Pool.State Pot Stake where
  closed := closedRounds st.db
  members := stakes st.db
  closings := st.settlements.map fun s => (s.pot, s.covered)

/-- What a settle does with the entries it read: it pays all of them back,
or draws over all of them, or gives each ticket its result row. -/
def Settlement.Effective (deps : Deps) : Settlement → Prop
  | .jackpot inp env before after =>
      let entries := Jackpot.findEntries inp.roundId before
      (Jackpot.refunds inp entries = true ∧
        Posts (entries.reverse.map (Jackpot.refundPosting inp)) before after) ∨
      ∃ winner row, Jackpot.refunds inp entries = false ∧
        Jackpot.winnerOf entries (Jackpot.drawTicket deps inp (Jackpot.pot entries)) =
          some winner ∧
        after.jackpotRounds inp.roundId =
          some (Jackpot.drawnRow inp env (Jackpot.drawOf deps inp entries winner) row)
  | .lottery inp env before after => Lottery.Settled deps inp env before after

/-! ## The steps are steps of the pools -/

variable {deps : Deps} {st st' : State}

theorem mem_roundEntries {roundId : RoundId} {db : Db} {e : JackpotEntry} :
    e ∈ Jackpot.roundEntries roundId db ↔ e ∈ db.jackpotEntries ∧ e.roundId = roundId := by
  simp [Jackpot.roundEntries]

/-- A jackpot settle covers the members of its round. -/
theorem covered_jackpot (inp : Jackpot.SettleInput) (env : Jackpot.SettleEnv) (before after : Db) :
    (Settlement.jackpot inp env before after).covered =
      {m | m ∈ stakes before ∧ m.1 = (.jackpot, inp.roundId)} := by
  ext m
  constructor
  · rintro ⟨e, he, rfl⟩
    obtain ⟨hmem, hround⟩ := mem_roundEntries.mp he
    exact ⟨⟨e, hmem, hround, rfl⟩, rfl⟩
  · obtain ⟨⟨_, r⟩, i⟩ := m
    rintro ⟨hstake, heq⟩
    cases heq
    obtain ⟨e, hmem, hround, rfl⟩ := hstake
    exact ⟨e, mem_roundEntries.mpr ⟨hmem, hround⟩, rfl⟩

theorem covered_lottery (inp : Lottery.SettleInput) (env : Lottery.SettleEnv) (before after : Db) :
    (Settlement.lottery inp env before after).covered =
      {m | m ∈ stakes before ∧ m.1 = (.lottery, inp.drawId)} := by
  ext m
  constructor
  · rintro ⟨t, ht, rfl⟩
    simp only [Lottery.findTickets, List.mem_map, List.mem_filter, decide_eq_true_eq] at ht
    obtain ⟨ticket, ⟨hmem, hdraw⟩, rfl⟩ := ht
    refine ⟨?_, rfl⟩
    show (inp.drawId, ticket.id) ∈ Lottery.ticketKeys before
    exact List.mem_map.mpr ⟨ticket, hmem, by rw [hdraw]⟩
  · obtain ⟨⟨_, r⟩, i⟩ := m
    rintro ⟨hstake, heq⟩
    cases heq
    obtain ⟨ticket, hmem, hkey⟩ := List.mem_map.mp hstake
    simp only [Prod.mk.injEq] at hkey
    obtain ⟨hdraw, rfl⟩ := hkey
    exact ⟨⟨ticket, _⟩, List.mem_map.mpr ⟨ticket, by simp [hmem, hdraw], rfl⟩, rfl⟩

/-- The jackpot part of the tables, for what leaves it alone. -/
def jackpotTables (db : Db) := (db.jackpotRounds, db.jackpotEntries)

/-- The lottery part of the tables. -/
def lotteryTables (db : Db) := (db.lotteryDraws, db.lotteryTickets)

/-- An entry joins its round. -/
theorem pools_entered {call : Jackpot.EnterCall} {env : Jackpot.EnterEnv} {db db' : Db}
    (h : Jackpot.Entered call env db db') (hlottery : lotteryTables db' = lotteryTables db)
    (settlements : List Settlement) :
    Pool.Step Prod.fst (pools ⟨db, settlements⟩) (pools ⟨db', settlements⟩) := by
  obtain ⟨hdraws, htickets⟩ := Prod.mk.inj hlottery
  have hclosed : closedRounds db' = closedRounds db := by
    ext ⟨game, r⟩
    cases game with
    | jackpot => simp [h.rounds]
    | lottery => simp [hdraws]
  have hstakes : stakes db' = {((.jackpot, call.roundId), env.id)} ∪ stakes db := by
    ext ⟨⟨game, r⟩, i⟩
    cases game with
    | jackpot => simp [h.entries, Jackpot.EnterCall.entry, @eq_comm _ r, @eq_comm _ i]
    | lottery => simp [Lottery.ticketKeys, htickets]
  have hjoin : Pool.Step Prod.fst _ _ :=
    Pool.Step.join (pools ⟨db, settlements⟩) {((.jackpot, call.roundId), env.id)} ?_
  · simpa only [pools, hclosed, hstakes] using hjoin
  · -- the guard saw an open row
    obtain ⟨_, hrow, hopen⟩ := h.isOpen
    rintro m rfl
    rintro ⟨_, hrow', hclosed'⟩
    rw [hrow] at hrow'
    cases hrow'
    exact hclosed' hopen

/-- A batch of tickets joins its draw. -/
theorem pools_bought {call : Lottery.BuyCall} {env : Lottery.BuyEnv} {db db' : Db}
    (h : Lottery.Bought call env db db') (hjackpot : jackpotTables db' = jackpotTables db)
    (settlements : List Settlement) :
    Pool.Step Prod.fst (pools ⟨db, settlements⟩) (pools ⟨db', settlements⟩) := by
  obtain ⟨hrounds, hentries⟩ := Prod.mk.inj hjackpot
  let bought : Set Stake := {m | ∃ ticket ∈ call.tickets env, m = ((.lottery, call.drawId), ticket.id)}
  have hdraw : ∀ ticket ∈ call.tickets env, ticket.drawId = call.drawId := by
    intro ticket hmem
    obtain ⟨_, -, rfl⟩ := List.mem_map.mp hmem
    rfl
  have hclosed : closedRounds db' = closedRounds db := by
    ext ⟨game, r⟩
    cases game with
    | jackpot => simp [hrounds]
    | lottery => simp [h.draws]
  have hstakes : stakes db' = bought ∪ stakes db := by
    ext ⟨⟨game, r⟩, i⟩
    cases game with
    | jackpot => simp [hentries, bought]
    | lottery =>
      simp only [mem_stakes_lottery, Lottery.ticketKeys, h.tickets, List.map_append,
        List.mem_append, List.mem_map, Set.mem_union, bought, Set.mem_ofPred_eq, Prod.mk.injEq,
        true_and]
      refine or_congr ⟨?_, ?_⟩ Iff.rfl
      · rintro ⟨ticket, hmem, rfl, rfl⟩
        exact ⟨ticket, hmem, hdraw ticket hmem, rfl⟩
      · rintro ⟨ticket, hmem, rfl, rfl⟩
        exact ⟨ticket, hmem, hdraw ticket hmem, rfl⟩
  have hjoin : Pool.Step Prod.fst _ _ := Pool.Step.join (pools ⟨db, settlements⟩) bought ?_
  · simpa only [pools, hclosed, hstakes] using hjoin
  · obtain ⟨_, hrow, hopen⟩ := h.isOpen
    rintro m ⟨_, -, rfl⟩
    rintro ⟨_, hrow', hclosed'⟩
    rw [hrow] at hrow'
    cases hrow'
    exact hclosed' hopen

/-- A committed jackpot settle closes its round over its entries. -/
theorem pools_settleJackpot {inp : Jackpot.SettleInput} {env : Jackpot.SettleEnv} {db db' : Db}
    {row row' : JackpotRound} (hrow : db.jackpotRounds inp.roundId = some row)
    (hopen : row.status = .open) (hclosed' : row'.status ≠ .open)
    (hrounds : db'.jackpotRounds = Function.update db.jackpotRounds inp.roundId (some row'))
    (hentries : db'.jackpotEntries = db.jackpotEntries)
    (hlottery : lotteryTables db' = lotteryTables db) (settlements : List Settlement) :
    Pool.Step Prod.fst (pools ⟨db, settlements⟩)
      (pools ⟨db', .jackpot inp env db db' :: settlements⟩) := by
  obtain ⟨hdraws, htickets⟩ := Prod.mk.inj hlottery
  have hclosed : closedRounds db' = insert (.jackpot, inp.roundId) (closedRounds db) := by
    ext ⟨game, r⟩
    cases game with
    | jackpot =>
      by_cases hr : r = inp.roundId
      · simp [hr, hrounds, hclosed']
      · simp [hr, hrounds]
    | lottery => simp [hdraws]
  have hstakes : stakes db' = stakes db := by
    ext ⟨⟨game, r⟩, i⟩
    cases game with
    | jackpot => simp [hentries]
    | lottery => simp [Lottery.ticketKeys, htickets]
  have hclose : Pool.Step Prod.fst _ _ :=
    Pool.Step.close (pools ⟨db, settlements⟩) (.jackpot, inp.roundId) ?_
  · simpa only [pools, hclosed, hstakes, List.map_cons, Settlement.pot, covered_jackpot]
      using hclose
  · rintro ⟨_, hrow'', hne⟩
    rw [hrow] at hrow''
    cases hrow''
    exact hne hopen

/-- A committed lottery settle closes its draw over its tickets. -/
theorem pools_settleLottery {inp : Lottery.SettleInput} {env : Lottery.SettleEnv} {db db' : Db}
    (h : Lottery.Settled deps inp env db db') (hjackpot : jackpotTables db' = jackpotTables db)
    (settlements : List Settlement) :
    Pool.Step Prod.fst (pools ⟨db, settlements⟩)
      (pools ⟨db', .lottery inp env db db' :: settlements⟩) := by
  obtain ⟨hrounds, hentries⟩ := Prod.mk.inj hjackpot
  obtain ⟨row, hrow, hopen, hdraws⟩ := h.claimed
  have hdrawn : (Lottery.drawnRow inp env (Lottery.findTickets inp.drawId db) row).status ≠ .open :=
    by simp [Lottery.drawnRow]
  have hclosed : closedRounds db' = insert (.lottery, inp.drawId) (closedRounds db) := by
    ext ⟨game, r⟩
    cases game with
    | jackpot => simp [hrounds]
    | lottery =>
      by_cases hr : r = inp.drawId
      · simp [hr, hdraws, hdrawn]
      · simp [hr, hdraws]
  have hstakes : stakes db' = stakes db := by
    ext ⟨⟨game, r⟩, i⟩
    cases game with
    | jackpot => simp [hentries]
    | lottery => simp [h.keys]
  have hclose : Pool.Step Prod.fst _ _ :=
    Pool.Step.close (pools ⟨db, settlements⟩) (.lottery, inp.drawId) ?_
  · simpa only [pools, hclosed, hstakes, List.map_cons, Settlement.pot, covered_lottery]
      using hclose
  · rintro ⟨_, hrow', hne⟩
    rw [hrow] at hrow'
    cases hrow'
    exact hne hopen

/-! ## What a step can do -/

/-- A jackpot settle that committed on `db`. -/
structure JackpotSettled (deps : Deps) (inp : Jackpot.SettleInput) (env : Jackpot.SettleEnv)
    (db db' : Db) : Prop where
  effective : (Settlement.jackpot inp env db db').Effective deps
  claimed : ∃ row row', db.jackpotRounds inp.roundId = some row ∧ row.status = .open ∧
    row'.status ≠ .open ∧
    db'.jackpotRounds = Function.update db.jackpotRounds inp.roundId (some row')
  entries : db'.jackpotEntries = db.jackpotEntries
  lottery : lotteryTables db' = lotteryTables db

theorem jackpotSettled_of_commit {inp : Jackpot.SettleInput} {env : Jackpot.SettleEnv}
    {vars v : Jackpot.Captured} {db db' : Db} {failAt : Option (Nat × TxError)} {u : Unit}
    (h : Tx.transact (Jackpot.settleTx deps inp env) vars db failAt = (v, .ok (u, db'))) :
    JackpotSettled deps inp env db db' := by
  obtain ⟨t, hrun, rfl, -⟩ := Tx.transact_ok h
  have hentries := Jackpot.settleTx_keeps (p := Db.jackpotEntries) (fun _ _ _ _ _ _ => rfl)
    (fun _ _ => rfl) (fun _ _ => rfl) _ _ _ hrun
  have hlottery := Jackpot.settleTx_keeps (p := lotteryTables) (fun _ _ _ _ _ _ => rfl)
    (fun _ _ => rfl) (fun _ _ => rfl) _ _ _ hrun
  obtain ⟨-, row, hrow, hopen, hrefunded | ⟨winner, hdrawn⟩⟩ := Jackpot.settleTx_ok hrun
  · exact ⟨.inl ⟨hrefunded.refunds, hrefunded.posts⟩,
      ⟨row, _, hrow, hopen, by simp [Jackpot.refundedRow], hrefunded.rounds⟩, hentries, hlottery⟩
  · refine ⟨.inr ⟨winner, row, hdrawn.draws, hdrawn.found, ?_⟩,
      ⟨row, _, hrow, hopen, by simp [Jackpot.drawnRow], hdrawn.rounds⟩, hentries, hlottery⟩
    rw [hdrawn.rounds, Function.update_self]

/-- A step changes nothing, or commits one of the four transactions. -/
inductive Stepped (deps : Deps) (st : State) : State → Prop
  | nothing : Stepped deps st st
  | entered {call : Jackpot.EnterCall} {env : Jackpot.EnterEnv} {db' : Db}
      (h : Jackpot.Entered call env st.db db') (hl : lotteryTables db' = lotteryTables st.db) :
      Stepped deps st { st with db := db' }
  | bought {call : Lottery.BuyCall} {env : Lottery.BuyEnv} {db' : Db}
      (h : Lottery.Bought call env st.db db') (hj : jackpotTables db' = jackpotTables st.db) :
      Stepped deps st { st with db := db' }
  | settledJackpot {inp : Jackpot.SettleInput} {env : Jackpot.SettleEnv} {db' : Db}
      (h : JackpotSettled deps inp env st.db db') :
      Stepped deps st ⟨db', .jackpot inp env st.db db' :: st.settlements⟩
  | settledLottery {inp : Lottery.SettleInput} {env : Lottery.SettleEnv} {db' : Db}
      (h : Lottery.Settled deps inp env st.db db')
      (hj : jackpotTables db' = jackpotTables st.db) :
      Stepped deps st ⟨db', .lottery inp env st.db db' :: st.settlements⟩

theorem step_cases {e : Event} (h : step deps st e = some st') : Stepped deps st st' := by
  cases e with
  | enter call env failAt =>
    simp only [step, Option.some.injEq] at h
    subst h
    rcases hres : Tx.transact (Jackpot.enterTx deps call env) () st.db failAt with
      ⟨v, e | ⟨outcome, db'⟩⟩
    · exact .nothing
    · obtain ⟨t, hrun, rfl, -⟩ := Tx.transact_ok hres
      have hlottery := Jackpot.enterTx_keeps (p := lotteryTables) (fun _ _ _ _ _ => rfl)
        (fun _ _ => rfl) (fun _ _ => rfl) _ _ _ hrun
      rcases Jackpot.enterTx_ok hrun with hsame | hentered
      · simp only [Tx.dbAfter, hsame]
        exact .nothing
      · exact .entered hentered hlottery
  | buy call env failAt =>
    simp only [step, Option.some.injEq] at h
    subst h
    rcases hres : Tx.transact (Lottery.buyTx deps call env) () st.db failAt with
      ⟨v, e | ⟨outcome, db'⟩⟩
    · exact .nothing
    · obtain ⟨t, hrun, rfl, -⟩ := Tx.transact_ok hres
      have hjackpot := Lottery.buyTx_keeps (p := jackpotTables) (fun _ _ _ _ _ => rfl)
        (fun _ _ => rfl) (fun _ _ => rfl) _ _ _ hrun
      rcases Lottery.buyTx_ok hrun with hsame | hbought
      · simp only [Tx.dbAfter, hsame]
        exact .nothing
      · exact .bought hbought hjackpot
  | settleJackpot inp env vars failAt =>
    simp only [step, Option.some.injEq] at h
    subst h
    rcases hres : Tx.transact (Jackpot.settleTx deps inp env) vars st.db failAt with
      ⟨v, e | ⟨u, db'⟩⟩
    · exact .nothing
    · exact .settledJackpot (jackpotSettled_of_commit hres)
  | settleLottery inp env vars failAt =>
    simp only [step, Option.some.injEq] at h
    subst h
    rcases hres : Tx.transact (Lottery.settleTx deps inp env) vars st.db failAt with
      ⟨v, e | ⟨u, db'⟩⟩
    · exact .nothing
    · obtain ⟨t, hrun, rfl, -⟩ := Tx.transact_ok hres
      have hjackpot := Lottery.settleTx_keeps (p := jackpotTables) (fun _ _ _ _ _ => rfl)
        (fun _ _ => rfl) (fun _ _ => rfl) (fun _ _ => rfl) (fun _ _ => rfl) _ _ _ hrun
      exact .settledLottery (Lottery.settleTx_ok hrun).2 hjackpot

/-- The transactions act on the pools as `Lib.Pool` says. -/
theorem step_simulates (deps : Deps) : Pool.Simulates (step deps) Prod.fst pools := by
  intro st e st' h
  cases step_cases h with
  | nothing => exact .skip _
  | entered hentered hl => exact pools_entered hentered hl st.settlements
  | bought hbought hj => exact pools_bought hbought hj st.settlements
  | settledJackpot hs =>
    obtain ⟨_, _, hrow, hopen, hclosed, hrounds⟩ := hs.claimed
    exact pools_settleJackpot hrow hopen hclosed hrounds hs.entries hs.lottery st.settlements
  | settledLottery hs hj => exact pools_settleLottery hs hj st.settlements

/-- Every settle of a run did what it does to the entries it read. -/
theorem step_effective {e : Event} (hst : ∀ s ∈ st.settlements, s.Effective deps)
    (h : step deps st e = some st') : ∀ s ∈ st'.settlements, s.Effective deps := by
  cases step_cases h with
  | nothing | entered | bought => exact hst
  | settledJackpot hs => exact List.forall_mem_cons.mpr ⟨hs.effective, hst⟩
  | settledLottery hs => exact List.forall_mem_cons.mpr ⟨hs, hst⟩

/-! ## No orphan -/

/-- From a database without an entry of a terminal round, whatever the order
of entries, purchases and settles and wherever they abort: every entry of a
terminal round is in the set that the round's one committed settle read and
paid back or drew over, and a rejected call changes nothing. -/
theorem late_entry_never_orphaned {db₀ : Db} {events : List Event}
    (hstart : ∀ m ∈ stakes db₀, m.1 ∉ closedRounds db₀)
    (hrun : run (step deps) ⟨db₀, []⟩ events = some st) :
    (∀ m ∈ stakes st.db, m.1 ∈ closedRounds st.db →
      ∃ s ∈ st.settlements, s.pot = m.1 ∧ m ∈ s.covered ∧ s.Effective deps ∧
        ∀ s' ∈ st.settlements, s'.pot = m.1 → s' = s) ∧
    (∀ call env failAt e,
      (Tx.transact (Jackpot.enterTx deps call env) () st.db failAt).2 = .error e →
        step deps st (.enter call env failAt) = some st) ∧
    (∀ call env failAt e,
      (Tx.transact (Lottery.buyTx deps call env) () st.db failAt).2 = .error e →
        step deps st (.buy call env failAt) = some st) := by
  have hinv : Pool.Inv Prod.fst (pools st) :=
    (step_simulates deps).inv (Pool.Inv.init (s := pools ⟨db₀, []⟩) rfl hstart) hrun
  have heffective : ∀ s ∈ st.settlements, s.Effective deps :=
    run_invariant (P := fun st => ∀ s ∈ st.settlements, s.Effective deps)
      (fun _ _ _ => step_effective) (by simp) hrun
  refine ⟨?_, ?_, ?_⟩
  · intro m hm hclosed
    obtain ⟨c, hc, hpot, hcover⟩ := hinv.covers m hm hclosed
    obtain ⟨s, hs, rfl⟩ := List.mem_map.mp hc
    refine ⟨s, hs, hpot, hcover, heffective s hs, ?_⟩
    intro s' hs' hpot'
    have honce : (st.settlements.map Settlement.pot).Nodup := by
      have := hinv.once
      simpa [pools, Function.comp_def] using this
    exact List.inj_on_of_nodup_map honce hs' hs (hpot'.trans hpot.symm)
  · intro call env failAt e h
    simp [step, h, Tx.dbAfter]
  · intro call env failAt e h
    simp [step, h, Tx.dbAfter]

/-- A second player enters, then the round is settled. -/
theorem late_entry_never_orphaned_sample :
    let call : Jackpot.EnterCall := ⟨2, 20000000, 1, none, by decide⟩
    let events : List Event := [.enter call ⟨2, 2000⟩ none,
      .settleJackpot Jackpot.Sample.input Jackpot.Sample.leader Jackpot.Captured.init none]
    ∃ st, run (step Jackpot.Sample.deps)
        ⟨Jackpot.Sample.db [Jackpot.Sample.firstEntry], []⟩ events = some st ∧
      ∀ m ∈ stakes st.db, m.1 ∈ closedRounds st.db →
        ∃ s ∈ st.settlements, s.pot = m.1 ∧ m ∈ s.covered ∧ s.Effective Jackpot.Sample.deps ∧
          ∀ s' ∈ st.settlements, s'.pot = m.1 → s' = s := by
  intro call events
  have hstart : ∀ m ∈ stakes (Jackpot.Sample.db [Jackpot.Sample.firstEntry]),
      m.1 ∉ closedRounds (Jackpot.Sample.db [Jackpot.Sample.firstEntry]) := by
    rintro ⟨⟨game, r⟩, i⟩ _ hclosed
    cases game with
    | jackpot =>
      obtain ⟨row, hrow, hne⟩ := hclosed
      simp only [Jackpot.Sample.db] at hrow
      split at hrow
      · cases hrow
        exact hne rfl
      · cases hrow
    | lottery =>
      obtain ⟨_, hrow, -⟩ := hclosed
      cases hrow
  have hrun : run (step Jackpot.Sample.deps)
      ⟨Jackpot.Sample.db [Jackpot.Sample.firstEntry], []⟩ events = some _ := rfl
  exact ⟨_, hrun, (late_entry_never_orphaned hstart hrun).1⟩

end Scadium.Games.LateEntry
