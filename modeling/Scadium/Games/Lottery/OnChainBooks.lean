/-
Scadium.Games.Lottery.OnChainBooks — the tickets of the API are those of the
chain, for every purchase confirmed while its draw is open.

A confirmation writes all the tickets of its transaction or none, in the draw
of their index, and each key once; a draw that closes has read its tickets.
The tickets of a purchase that is one batch cost what it paid, up to less
than one base unit each (`books_agree`). A confirmation that comes while the
draw is open in memory goes through (`confirm_accepted`); one that comes
later is refused, and its tickets are never drawn (`ticket_unconfirmed`).
-/
import Scadium.Games.Lottery.OnChain

namespace Scadium.Games.Lottery.OnChain

open Scadium.Lib Scadium.Prisma Scadium.Shared
open Scadium.Programs.Lottery (Accounts Instruction TicketBought setup)

variable {deps : Games.Deps} {a a' : State} {answer : Answer} {call call' : Call}
  {rest : Option Call} {signature : Signature} {userId : UserId} {draw : OpenDraw}
  {events : List TicketBought}

/-! ## Prices -/

/-- What the tickets of a transaction are recorded to cost. -/
def recordedCost (n : Nat) : Nat := perTicketScad n * n

/-- The batch of one purchase costs what is recorded, and less than one unit
more for each ticket. -/
theorem recordedCost_of_batch {n : Nat} (hn : 0 < n) :
    recordedCost n ≤ bulkDiscountTotal ticketPriceScadBase n ∧
      bulkDiscountTotal ticketPriceScadBase n < recordedCost n + n := by
  have hdiv := Nat.div_add_mod (bulkDiscountTotal ticketPriceScadBase n) n
  have hmod := Nat.mod_lt (bulkDiscountTotal ticketPriceScadBase n) hn
  rw [recordedCost, perTicketScad, Nat.mul_comm]
  omega

/-- An instruction of one batch costs the API's price of the batch. -/
theorem cost_eq {ix : Instruction} {buyer : String} (h : ix.tickets buyer ≠ []) :
    ix.cost setup = bulkDiscountTotal ticketPriceScadBase (ix.tickets buyer).length := by
  cases ix with
  | buyTicket =>
    show setup.ticket_price = bulkDiscountTotal ticketPriceScadBase 1
    decide
  | buyTickets drawIndex picks =>
    show _ = bulkDiscountTotal ticketPriceScadBase (picks.map _).length
    rw [List.length_map]
    rfl
  | other => exact absurd rfl h

theorem cost_other {ix : Instruction} {buyer : String} (h : ix.tickets buyer = []) :
    ix.cost setup = 0 := by
  cases ix with
  | buyTicket => cases h
  | buyTickets drawIndex picks =>
    have hpicks : picks = [] := List.map_eq_nil_iff.mp h
    simp [Instruction.cost, hpicks]
  | other => rfl

/-! ## Purchases -/

/-- The instructions that bought tickets. -/
def Landed.batches (tx : Landed) : List Instruction :=
  tx.instructions.filter fun ix => ix.tickets tx.buyer ≠ []

/-- What a transaction that landed has on record. -/
structure Landed.Sound (tx : Landed) : Prop where
  events : tx.events = tx.instructions.flatMap (·.tickets tx.buyer)
  log : verifyTicketTx tx = tx.events
  spent : tx.spent = (tx.instructions.map (·.cost setup)).sum

theorem sum_batches (buyer : String) (ixs : List Instruction) :
    (ixs.map (·.cost setup)).sum =
      ((ixs.filter fun ix => ix.tickets buyer ≠ []).map (·.cost setup)).sum := by
  induction ixs with
  | nil => rfl
  | cons ix ixs ih =>
    by_cases h : ix.tickets buyer = []
    · simp [h, cost_other h, ih]
    · simp [h, ih]

theorem flatMap_batches (buyer : String) (ixs : List Instruction) :
    ixs.flatMap (·.tickets buyer) =
      (ixs.filter fun ix => ix.tickets buyer ≠ []).flatMap (·.tickets buyer) := by
  induction ixs with
  | nil => rfl
  | cons ix ixs ih =>
    by_cases h : ix.tickets buyer = []
    · simp [h, ih]
    · simp [h, ih]

/-- The price of a transaction with one batch. -/
theorem Landed.Sound.one_batch {tx : Landed} (h : tx.Sound) {ix : Instruction}
    (hone : tx.batches = [ix]) :
    recordedCost tx.events.length ≤ tx.spent ∧
      tx.spent < recordedCost tx.events.length + tx.events.length := by
  have hmem : ix ∈ tx.batches := by simp [hone]
  have htickets : ix.tickets tx.buyer ≠ [] := by simpa using (List.mem_filter.mp hmem).2
  have hevents : tx.events = ix.tickets tx.buyer := by
    rw [h.events, flatMap_batches]
    show tx.batches.flatMap _ = _
    simp [hone]
  have hspent : tx.spent = ix.cost setup := by
    rw [h.spent, sum_batches tx.buyer]
    show (tx.batches.map _).sum = _
    simp [hone]
  rw [hspent, hevents, cost_eq htickets]
  exact recordedCost_of_batch (List.length_pos_iff.mpr htickets)

/-! ## The transaction of a confirmation -/

theorem confirmTx_ok {drawId : RoundId} {tickets : List LotteryTicket} {u : Unit}
    {s t : TxState Unit Db TxError} (h : (confirmTx drawId tickets).run s = .ok u t) :
    (∃ row, s.db.lotteryDraws drawId = some row ∧ row.status = .open) ∧
      t.db = { s.db with lotteryTickets := tickets.reverse ++ s.db.lotteryTickets } ∧
      ((s.db.lotteryTickets.map (·.id)).Nodup → (t.db.lotteryTickets.map (·.id)).Nodup) := by
  obtain ⟨_, s₁, hcreate, hguard⟩ := Tx.bind_eq_ok.mp h
  obtain ⟨row, hrow, hopen, hsame⟩ := assertDrawStillOpen_ok hguard
  have hcreated : s₁.db = { s.db with lotteryTickets := tickets.reverse ++ s.db.lotteryTickets } ∧
      ((s.db.lotteryTickets.map (·.id)).Nodup → (s₁.db.lotteryTickets.map (·.id)).Nodup) := by
    clear hguard hrow hsame h
    induction tickets generalizing s with
    | nil =>
      obtain ⟨-, rfl⟩ := Tx.pure_eq_ok.mp hcreate
      exact ⟨rfl, id⟩
    | cons ticket tickets ih =>
      obtain ⟨_, _, hfirst, hrest⟩ := Tx.bind_eq_ok.mp hcreate
      obtain ⟨_, _, hinsert, hpure⟩ := Tx.bind_eq_ok.mp hfirst
      obtain ⟨-, rfl⟩ := Tx.pure_eq_ok.mp hpure
      have hone := (Tx.statement_ok hinsert).1
      have hnodup : (((ticket :: s.db.lotteryTickets)).map (·.id)).Nodup := by
        unfold createManyTickets at hone
        split at hone
        · rename_i hnodup
          exact hnodup
        · cases hone
      have hdb := createManyTickets_ok hone
      obtain ⟨hrows, hids⟩ := ih hrest
      refine ⟨?_, fun _ => hids ?_⟩
      · rw [hrows, hdb]
        simp
      · rw [hdb]
        exact hnodup
  rw [hcreated.1] at hrow
  exact ⟨⟨row, hrow, hopen⟩, hsame.trans hcreated.1, by rw [hsame]; exact hcreated.2⟩

theorem mem_ticketsOf {t : LotteryTicket} (h : t ∈ ticketsOf deps answer userId draw events) :
    ∃ i e, events[i]? = some e ∧ t = ticketOf deps answer userId draw events.length (e, i) := by
  obtain ⟨⟨e, i⟩, hei, rfl⟩ := List.mem_map.mp h
  exact ⟨i, e, List.mem_zipIdx_iff_getElem?.mp hei, rfl⟩

theorem ticketOf_mem {i : Nat} {e : TicketBought} (h : events[i]? = some e) :
    ticketOf deps answer userId draw events.length (e, i) ∈
      ticketsOf deps answer userId draw events :=
  List.mem_map.mpr ⟨(e, i), List.mem_zipIdx_iff_getElem?.mpr h, rfl⟩

theorem get_insertKeys {keys : Table (Signature × Nat) EntryId} {randomUUID : Nat → EntryId}
    {n : Nat} (k : Signature × Nat) :
    (insertKeys keys signature randomUUID n).get k =
      if k.1 = signature ∧ k.2 < n then some (randomUUID k.2) else keys.get k := by
  induction n with
  | zero => simp [insertKeys]
  | succ n ih =>
    obtain ⟨sig, i⟩ := k
    rw [insertKeys, Table.get_set, ih]
    by_cases h : (sig, i) = (signature, n)
    · obtain ⟨rfl, rfl⟩ := Prod.mk.inj h
      simp
    · rw [if_neg h]
      have hiff : (sig = signature ∧ i < n) ↔ (sig = signature ∧ i < n + 1) := by
        simp only [Prod.mk.injEq, not_and] at h
        constructor
        · rintro ⟨hs, hi⟩
          exact ⟨hs, by omega⟩
        · rintro ⟨hs, _⟩
          have := h hs
          exact ⟨hs, by omega⟩
      simp only [hiff]

/-! ## The invariant -/

/-- The ticket of an event. -/
structure Ticketed (a : State) (tx : Landed) (e : TicketBought) (t : LotteryTicket) : Prop where
  stored : t ∈ a.world.db.lotteryTickets
  digits : t.digits = e.digits
  cost : t.costScadBase = perTicketScad tx.events.length
  draw : ∃ row, a.world.db.lotteryDraws t.drawId = some row ∧ row.drawIndex = e.draw_index

/-- The tickets a settle brackets. -/
def Settlement.tickets (st : Settlement) : List TicketWithUser :=
  findTickets st.inp.drawId st.before

/-- Every key is a ticket of an event, all of a transaction or none; every
drawn draw was drawn once, over all its tickets. -/
structure Books (deps : Games.Deps) (a : State) : Prop where
  landed : ∀ signature tx, a.txs.get signature = some tx → tx.Sound
  keyed : ∀ signature i id, a.keys.get (signature, i) = some id →
    ∃ tx e t, a.txs.get signature = some tx ∧ tx.events[i]? = some e ∧
      Ticketed a tx e t ∧ t.id = id
  whole : ∀ signature i id tx, a.keys.get (signature, i) = some id →
    a.txs.get signature = some tx → ∀ j < tx.events.length, (a.keys.get (signature, j)).isSome
  single : ∀ k k' id, a.keys.get k = some id → a.keys.get k' = some id → k = k'
  ids : (a.world.db.lotteryTickets.map (·.id)).Nodup
  closed : ∀ t ∈ a.world.db.lotteryTickets, ∀ row, a.world.db.lotteryDraws t.drawId = some row →
    row.status ≠ .open → ∃ st ∈ a.settlements, st.inp.drawId = t.drawId ∧
      t.id ∈ st.tickets.map (·.ticket.id)
  drawn : ∀ st ∈ a.settlements, Settled deps st.inp st.env st.before st.after ∧
    ∃ row, a.world.db.lotteryDraws st.inp.drawId = some row ∧ row.status ≠ .open
  once : (a.settlements.map (·.inp.drawId)).Nodup
  memory : ∀ process current, a.engines.get process = some current →
    ∃ row, a.world.db.lotteryDraws current.id = some row ∧ row.drawIndex = current.drawIndex

/-- What a confirmation relies on. -/
def Reads (a : State) : Call → Prop
  | .findUser _ _ draw | .verify _ _ draw _ =>
      ∃ row, a.world.db.lotteryDraws draw.id = some row ∧ row.drawIndex = draw.drawIndex
  | .create _ signature draw events =>
      (∃ row, a.world.db.lotteryDraws draw.id = some row ∧ row.drawIndex = draw.drawIndex) ∧
        events ≠ [] ∧ (∀ e ∈ events, e.draw_index = draw.drawIndex) ∧
          ∃ tx, a.txs.get signature = some tx ∧ verifyTicketTx tx = events
  | _ => True

/-! ## What a step does -/

/-- Draws are only added, and open. -/
def DrawsGrow (db db' : Db) : Prop :=
  ∀ id, db'.lotteryDraws id = db.lotteryDraws id ∨
    db.lotteryDraws id = none ∧ ∃ row, db'.lotteryDraws id = some row ∧ row.status = .open

/-- No ticket, no key and no settle is added. -/
structure Quiet (a a' : State) : Prop where
  txs : ∀ signature tx, a.txs.get signature = some tx → a'.txs.get signature = some tx
  landed : ∀ signature tx, a'.txs.get signature = some tx →
    a.txs.get signature = some tx ∨ tx.Sound
  keys : a'.keys = a.keys
  settlements : a'.settlements = a.settlements
  tickets : a'.world.db.lotteryTickets = a.world.db.lotteryTickets
  draws : DrawsGrow a.world.db a'.world.db
  memory : ∀ process current, a'.engines.get process = some current →
    (∃ old, a.engines.get process = some old ∧ old.id = current.id ∧
      old.drawIndex = current.drawIndex) ∨
    ∃ row, a.world.db.lotteryDraws current.id = some row ∧ row.drawIndex = current.drawIndex

theorem DrawsGrow.refl (db : Db) : DrawsGrow db db := fun _ => .inl rfl

theorem DrawsGrow.keeps {db db' : Db} (h : DrawsGrow db db') {id : RoundId} {row : LotteryDraw}
    (hrow : db.lotteryDraws id = some row) : db'.lotteryDraws id = some row := by
  rcases h id with heq | ⟨hnone, -⟩
  · rw [heq, hrow]
  · rw [hnone] at hrow
    cases hrow

theorem DrawsGrow.closed {db db' : Db} (h : DrawsGrow db db') {id : RoundId} {row : LotteryDraw}
    (hrow : db'.lotteryDraws id = some row) (hne : row.status ≠ .open) :
    db.lotteryDraws id = some row := by
  rcases h id with heq | ⟨-, _, hrow', hopen⟩
  · rw [← heq, hrow]
  · rw [hrow] at hrow'
    cases hrow'
    exact absurd hopen hne

/-- The books of the tickets are as they were. -/
structure Untouched (a a' : State) : Prop where
  txs : a'.txs = a.txs
  keys : a'.keys = a.keys
  settlements : a'.settlements = a.settlements
  tickets : a'.world.db.lotteryTickets = a.world.db.lotteryTickets

theorem Untouched.quiet (h : Untouched a a') (hdraws : DrawsGrow a.world.db a'.world.db)
    (hmemory : ∀ process current, a'.engines.get process = some current →
      (∃ old, a.engines.get process = some old ∧ old.id = current.id ∧
        old.drawIndex = current.drawIndex) ∨
      ∃ row, a.world.db.lotteryDraws current.id = some row ∧
        row.drawIndex = current.drawIndex) : Quiet a a' where
  txs signature tx htx := by rw [h.txs, htx]
  landed signature tx htx := .inl (h.txs ▸ htx)
  keys := h.keys
  settlements := h.settlements
  tickets := h.tickets
  draws := hdraws
  memory := hmemory

/-- Nothing but the accounts of users or of the program changes. -/
theorem Untouched.quiet_of_draws (h : Untouched a a') (hengines : a'.engines = a.engines)
    (hdraws : a'.world.db.lotteryDraws = a.world.db.lotteryDraws) : Quiet a a' := by
  refine h.quiet (fun id => .inl (by rw [hdraws])) ?_
  intro process current hcurrent
  rw [hengines] at hcurrent
  exact .inl ⟨current, hcurrent, rfl, rfl⟩

theorem Quiet.refl (a : State) : Quiet a a :=
  Untouched.quiet_of_draws ⟨rfl, rfl, rfl, rfl⟩ rfl rfl

theorem quiet_updateUser {f : User → User} : Quiet a (a.updateUser userId f) := by
  unfold State.updateUser
  split
  · exact Untouched.quiet_of_draws ⟨rfl, rfl, rfl, rfl⟩ rfl rfl
  · exact .refl a

theorem quiet_setAccounts {r : Programs.Lottery.Result Accounts} : Quiet a (a.setAccounts r) := by
  cases r with
  | ok => exact Untouched.quiet_of_draws ⟨rfl, rfl, rfl, rfl⟩ rfl rfl
  | error => exact .refl a

theorem quiet_createDraw {id : RoundId} {new : NewDraw} (h : a.world.accepts id new = true) :
    Quiet a { a with world := a.world.createDraw id new } := by
  have hnone : a.world.db.lotteryDraws id = none := by
    have haccepts := (Bool.and_eq_true_iff.mp h).1
    simpa using haccepts
  refine Untouched.quiet ⟨rfl, rfl, rfl, rfl⟩ ?_ ?_
  · intro id'
    by_cases hid : id' = id
    · subst hid
      exact .inr ⟨hnone, _, Function.update_self .., rfl⟩
    · exact .inl (Function.update_of_ne hid _ _)
  · intro process current hcurrent
    exact .inl ⟨current, hcurrent, rfl, rfl⟩

theorem quiet_engine {process : ProcessId} {current : Current}
    (h : (∃ old, a.engines.get process = some old ∧ old.id = current.id ∧
        old.drawIndex = current.drawIndex) ∨
      ∃ row, a.world.db.lotteryDraws current.id = some row ∧ row.drawIndex = current.drawIndex) :
    Quiet a { a with engines := a.engines.set process current } := by
  refine Untouched.quiet ⟨rfl, rfl, rfl, rfl⟩ (.refl _) ?_
  intro p c hc
  have hcases := a.engines.forall_set_of_ne (k := process) (a := current)
    (P := fun p c => (∃ old, a.engines.get p = some old ∧ old.id = c.id ∧
        old.drawIndex = c.drawIndex) ∨
      ∃ row, a.world.db.lotteryDraws c.id = some row ∧ row.drawIndex = c.drawIndex)
    (fun j b _ hb => .inl ⟨b, hb, rfl, rfl⟩) h
  exact hcases p c hc

theorem quiet_purchase {unix_timestamp : Nat} {buyer : String} {instructions : List Instruction} :
    Quiet a (a.purchase unix_timestamp signature buyer instructions) := by
  unfold State.purchase
  split
  · exact .refl a
  · rename_i hnew
    simp only [not_or, Bool.not_eq_true, Option.isSome_eq_false_iff, Option.isNone_iff_eq_none]
      at hnew
    split
    · rename_i accounts events hexec
      obtain ⟨hevents, _, hlog⟩ := Programs.Lottery.exec_ok hexec
      refine ⟨?_, ?_, rfl, rfl, rfl, .refl _, fun _ current h => .inl ⟨current, h, rfl, rfl⟩⟩
      · intro sig tx htx
        rw [Table.get_set_ne _ (by rintro rfl; rw [hnew.1] at htx; cases htx)]
        exact htx
      · intro sig tx htx
        rw [Table.get_set] at htx
        split at htx
        · cases htx
          refine .inr ⟨hevents, hlog, ?_⟩
          show accounts.scad.get .treasury - a.accounts.scad.get .treasury =
            (instructions.map (·.cost setup)).sum
          omega
        · exact .inl htx
    · exact .refl a

theorem Ticketed.quiet {tx : Landed} {e : TicketBought} {t : LotteryTicket}
    (h : Ticketed a tx e t) (hquiet : Quiet a a') : Ticketed a' tx e t := by
  obtain ⟨row, hrow, hindex⟩ := h.draw
  exact ⟨hquiet.tickets ▸ h.stored, h.digits, h.cost, row, hquiet.draws.keeps hrow, hindex⟩

theorem Books.quiet (h : Books deps a) (hquiet : Quiet a a') : Books deps a' where
  landed signature tx htx := by
    rcases hquiet.landed signature tx htx with hold | hnew
    · exact h.landed signature tx hold
    · exact hnew
  keyed signature i id hkey := by
    rw [hquiet.keys] at hkey
    obtain ⟨tx, e, t, htx, he, hticketed, hid⟩ := h.keyed signature i id hkey
    exact ⟨tx, e, t, hquiet.txs signature tx htx, he, hticketed.quiet hquiet, hid⟩
  whole signature i id tx hkey htx := by
    rw [hquiet.keys] at hkey ⊢
    obtain ⟨tx', e, t, htx', -⟩ := h.keyed signature i id hkey
    have hsame := hquiet.txs signature tx' htx'
    rw [htx] at hsame
    cases hsame
    exact h.whole signature i id tx hkey htx'
  single := by
    rw [hquiet.keys]
    exact h.single
  ids := by
    rw [hquiet.tickets]
    exact h.ids
  closed t ht row hrow hne := by
    rw [hquiet.tickets] at ht
    rw [hquiet.settlements]
    exact h.closed t ht row (hquiet.draws.closed hrow hne) hne
  drawn st hst := by
    rw [hquiet.settlements] at hst
    obtain ⟨hsettled, row, hrow, hne⟩ := h.drawn st hst
    exact ⟨hsettled, row, hquiet.draws.keeps hrow, hne⟩
  once := by
    rw [hquiet.settlements]
    exact h.once
  memory process current hcurrent := by
    rcases hquiet.memory process current hcurrent with
      ⟨old, hold, hid, hindex⟩ | ⟨row, hrow, hindex⟩
    · obtain ⟨row, hrow, hrowIndex⟩ := h.memory process old hold
      exact ⟨row, hquiet.draws.keeps (hid ▸ hrow), hrowIndex.trans hindex⟩
    · exact ⟨row, hquiet.draws.keeps hrow, hindex⟩

theorem Reads.quiet (h : Reads a call) (hquiet : Quiet a a') : Reads a' call := by
  cases call with
  | findUser userId signature draw | verify userId signature draw wallet =>
    obtain ⟨row, hrow, hindex⟩ := h
    exact ⟨row, hquiet.draws.keeps hrow, hindex⟩
  | create =>
    obtain ⟨⟨row, hrow, hindex⟩, hne, hdraw, tx, htx, hlog⟩ := h
    exact ⟨⟨row, hquiet.draws.keeps hrow, hindex⟩, hne, hdraw, tx, hquiet.txs _ _ htx, hlog⟩
  | _ => trivial

/-! ## A confirmation -/

/-- A confirmation that commits. -/
structure Creates (deps : Games.Deps) (answer : Answer) (userId : UserId) (signature : Signature)
    (draw : OpenDraw) (events : List TicketBought) (a a' : State) : Prop where
  txs : a'.txs = a.txs
  settlements : a'.settlements = a.settlements
  engines : a'.engines = a.engines
  draws : a'.world.db.lotteryDraws = a.world.db.lotteryDraws
  free : ∀ i < events.length, a.keys.get (signature, i) = none
  keys : a'.keys = insertKeys a.keys signature answer.randomUUID events.length
  tickets : a'.world.db.lotteryTickets =
    (ticketsOf deps answer userId draw events).reverse ++ a.world.db.lotteryTickets
  ids : (a.world.db.lotteryTickets.map (·.id)).Nodup →
    (a'.world.db.lotteryTickets.map (·.id)).Nodup
  isOpen : ∃ row, a.world.db.lotteryDraws draw.id = some row ∧ row.status = .open

theorem create_cases (deps : Games.Deps) (a : State) (answer : Answer) (userId : UserId)
    (signature : Signature) (draw : OpenDraw) (events : List TicketBought) :
    a.create deps answer userId signature draw events = a ∨
      Creates deps answer userId signature draw events a
        (a.create deps answer userId signature draw events) := by
  unfold State.create
  split
  · exact .inl rfl
  · rename_i hfree
    split
    · rename_i u db hcommit
      obtain ⟨s, hrun, rfl⟩ := Tx.transact_snd_ok hcommit
      obtain ⟨hopen, hdb, hids⟩ := confirmTx_ok hrun
      refine .inr ⟨rfl, rfl, rfl, ?_, ?_, rfl, ?_, hids, hopen⟩
      · show s.db.lotteryDraws = _
        rw [hdb]
      · intro i hi
        simp only [List.any_eq_true, List.mem_range, not_exists, not_and, Bool.not_eq_true,
          Option.isSome_eq_false_iff, Option.isNone_iff_eq_none] at hfree
        exact hfree i hi
      · show s.db.lotteryTickets = _
        rw [hdb]
    · exact .inl rfl

variable {tx : Landed}

theorem Ticketed.create (hcreates : Creates deps answer userId signature draw events a a')
    {e : TicketBought} {t : LotteryTicket} (h : Ticketed a tx e t) : Ticketed a' tx e t := by
  refine ⟨?_, h.digits, h.cost, ?_⟩
  · rw [hcreates.tickets]
    exact List.mem_append_right _ h.stored
  · rw [hcreates.draws]
    exact h.draw

theorem ids_ticketsOf : (ticketsOf deps answer userId draw events).map (·.id) =
    (List.range events.length).map answer.randomUUID := by
  have hsnd : events.zipIdx.map Prod.snd = List.range events.length := by
    rw [List.zipIdx_map_snd, List.range_eq_range']
  rw [← hsnd, ticketsOf, List.map_map, List.map_map]
  rfl

/-- The ids of new tickets differ from each other and from the old ones. -/
theorem Creates.apart (hcreates : Creates deps answer userId signature draw events a a')
    (hids : (a.world.db.lotteryTickets.map (·.id)).Nodup) :
    (∀ i < events.length, ∀ j < events.length,
      answer.randomUUID i = answer.randomUUID j → i = j) ∧
      ∀ i < events.length, answer.randomUUID i ∉ a.world.db.lotteryTickets.map (·.id) := by
  have hall := hcreates.ids hids
  rw [hcreates.tickets, List.map_append, List.map_reverse, ids_ticketsOf] at hall
  obtain ⟨hnew, -, hdisjoint⟩ := List.nodup_append.mp hall
  rw [List.nodup_reverse] at hnew
  constructor
  · intro i hi j hj heq
    exact List.inj_on_of_nodup_map hnew (List.mem_range.mpr hi) (List.mem_range.mpr hj) heq
  · intro i hi hmem
    refine hdisjoint (answer.randomUUID i) ?_ _ hmem rfl
    rw [List.mem_reverse]
    exact List.mem_map_of_mem (List.mem_range.mpr hi)

theorem Creates.get (hcreates : Creates deps answer userId signature draw events a a')
    {k : Signature × Nat} {id : EntryId} (h : a'.keys.get k = some id) :
    (k.1 = signature ∧ k.2 < events.length ∧ id = answer.randomUUID k.2) ∨
      a.keys.get k = some id := by
  rw [hcreates.keys, get_insertKeys] at h
  split at h
  · rename_i hk
    cases h
    exact .inl ⟨hk.1, hk.2, rfl⟩
  · exact .inr h

theorem Creates.get_old (hcreates : Creates deps answer userId signature draw events a a')
    {k : Signature × Nat} {id : EntryId} (h : a.keys.get k = some id) :
    a'.keys.get k = some id := by
  rw [hcreates.keys, get_insertKeys]
  split
  · rename_i hk
    obtain ⟨_, i⟩ := k
    obtain ⟨rfl, hi⟩ := hk
    rw [hcreates.free i hi] at h
    cases h
  · exact h

theorem Creates.get_new (hcreates : Creates deps answer userId signature draw events a a')
    {i : Nat} (hi : i < events.length) :
    a'.keys.get (signature, i) = some (answer.randomUUID i) := by
  rw [hcreates.keys, get_insertKeys, if_pos ⟨rfl, hi⟩]

/-- The ticket of a new key. -/
theorem Creates.ticketed (hcreates : Creates deps answer userId signature draw events a a')
    (hlog : tx.events = events)
    (hrow : ∃ row, a.world.db.lotteryDraws draw.id = some row ∧ row.drawIndex = draw.drawIndex)
    (hdraw : ∀ e ∈ events, e.draw_index = draw.drawIndex) {i : Nat} {e : TicketBought}
    (he : events[i]? = some e) :
    Ticketed a' tx e (ticketOf deps answer userId draw events.length (e, i)) := by
  refine ⟨?_, rfl, by rw [hlog]; rfl, ?_⟩
  · rw [hcreates.tickets]
    exact List.mem_append_left _ (List.mem_reverse.mpr (ticketOf_mem he))
  · rw [hcreates.draws]
    obtain ⟨row, hfound, hindex⟩ := hrow
    exact ⟨row, hfound, hindex.trans (hdraw e (List.mem_of_getElem? he)).symm⟩

theorem Books.create (h : Books deps a) (hreads : Reads a (.create userId signature draw events))
    (hcreates : Creates deps answer userId signature draw events a a') : Books deps a' := by
  obtain ⟨hrow, -, hdraw, tx, htx, hlog⟩ := hreads
  have hevents : tx.events = events := (h.landed signature tx htx).log.symm.trans hlog
  obtain ⟨hnew, hold⟩ := hcreates.apart h.ids
  have hkept : ∀ k id, a.keys.get k = some id → id ∈ a.world.db.lotteryTickets.map (·.id) := by
    rintro ⟨sig, i⟩ id hkey
    obtain ⟨_, _, t, _, _, hticketed, rfl⟩ := h.keyed sig i id hkey
    exact List.mem_map_of_mem hticketed.stored
  refine ⟨?_, ?_, ?_, ?_, hcreates.ids h.ids, ?_, ?_, ?_, ?_⟩
  · rw [hcreates.txs]
    exact h.landed
  · intro sig i id hkey
    rw [hcreates.txs]
    rcases hcreates.get hkey with ⟨rfl, hi, rfl⟩ | hkey
    · obtain ⟨e, he⟩ : ∃ e, events[i]? = some e := ⟨_, List.getElem?_eq_getElem hi⟩
      exact ⟨tx, e, _, htx, hevents ▸ he, hcreates.ticketed hevents hrow hdraw he, rfl⟩
    · obtain ⟨tx', e, t, htx', he, hticketed, hid⟩ := h.keyed sig i id hkey
      exact ⟨tx', e, t, htx', he, hticketed.create hcreates, hid⟩
  · intro sig i id tx' hkey htx' j hj
    rw [hcreates.txs] at htx'
    rcases hcreates.get hkey with ⟨rfl, -, -⟩ | hkey
    · rw [htx] at htx'
      cases htx'
      rw [hcreates.get_new (hevents ▸ hj)]
      rfl
    · obtain ⟨_, hid'⟩ := Option.isSome_iff_exists.mp (h.whole sig i id tx' hkey htx' j hj)
      rw [hcreates.get_old hid']
      rfl
  · intro k k' id hk hk'
    rcases hcreates.get hk with ⟨hs, hi, rfl⟩ | hk <;>
      rcases hcreates.get hk' with ⟨hs', hi', heq⟩ | hk'
    · exact Prod.ext (hs.trans hs'.symm) (hnew _ hi _ hi' heq)
    · exact absurd (hkept k' _ hk') (hold _ hi)
    · subst heq
      exact absurd (hkept k _ hk) (hold _ hi')
    · exact h.single k k' id hk hk'
  · intro t ht row hfound hne
    rw [hcreates.settlements]
    rw [hcreates.draws] at hfound
    rw [hcreates.tickets] at ht
    rcases List.mem_append.mp ht with ht | ht
    · obtain ⟨i, e, -, rfl⟩ := mem_ticketsOf (List.mem_reverse.mp ht)
      obtain ⟨_, hrow', hopen⟩ := hcreates.isOpen
      have hsame : a.world.db.lotteryDraws draw.id = some row := hfound
      rw [hsame] at hrow'
      cases hrow'
      exact absurd hopen hne
    · exact h.closed t ht row hfound hne
  · rw [hcreates.settlements, hcreates.draws]
    exact h.drawn
  · rw [hcreates.settlements]
    exact h.once
  · rw [hcreates.engines, hcreates.draws]
    exact h.memory

theorem Reads.create (h : Reads a call)
    (hcreates : Creates deps answer userId signature draw events a a') : Reads a' call := by
  cases call with
  | findUser userId signature draw | verify userId signature draw wallet =>
    show ∃ row, a'.world.db.lotteryDraws _ = some row ∧ _
    rw [hcreates.draws]
    exact h
  | create =>
    show (∃ row, a'.world.db.lotteryDraws _ = some row ∧ _) ∧ _ ∧ _ ∧
      ∃ tx, a'.txs.get _ = some tx ∧ _
    rw [hcreates.draws, hcreates.txs]
    exact h
  | _ => trivial

/-! ## A settle -/

/-- What a settle does not write of a ticket. -/
def boughtOf (t : LotteryTicket) : EntryId × RoundId × List Nat × Nat :=
  (t.id, t.drawId, t.digits, t.costScadBase)

def bought (db : Db) : List (EntryId × RoundId × List Nat × Nat) :=
  db.lotteryTickets.map boughtOf

theorem updateManyTickets_bought (group : TicketGroup) (ids : List EntryId) (db : Db) :
    bought (updateManyTickets group ids db) = bought db := by
  simp only [bought, updateManyTickets, List.map_map]
  refine List.map_congr_left ?_
  intro t _
  simp only [Function.comp_apply]
  split <;> rfl

theorem settleTx_bought {inp : SettleInput} {env : SettleEnv} {s t : TxState Captured Db TxError}
    {u : Unit} (h : (settleTx deps inp env).run s = .ok u t) : bought t.db = bought s.db := by
  obtain ⟨-, _, _, -, -, hdb, hwrite⟩ := settleTx_claimed h
  have hkeep := writeResults_keeps (p := bought) (fun _ _ _ _ _ => rfl)
    (fun db group ids => updateManyTickets_bought group ids db) (fun _ _ => rfl) (fun _ _ => rfl)
    _ _ _ _ hwrite
  rw [hkeep, hdb]
  rfl

/-- A settle that commits. -/
structure Settles (deps : Games.Deps) (inp : SettleInput) (env : SettleEnv) (a a' : State) :
    Prop where
  txs : a'.txs = a.txs
  keys : a'.keys = a.keys
  engines : a'.engines = a.engines
  settled : Settled deps inp env a.world.db a'.world.db
  sold : bought a'.world.db = bought a.world.db
  settlements : a'.settlements = ⟨inp, env, a.world.db, a'.world.db⟩ :: a.settlements

theorem settle_cases (deps : Games.Deps) (a : State) (answer : Answer) (inp : SettleInput)
    (env : SettleEnv) (vars : Captured) :
    a.settle deps answer inp env vars = a ∨
      Settles deps inp env a (a.settle deps answer inp env vars) := by
  unfold State.settle
  split
  · rename_i u db hcommit
    obtain ⟨s, hrun, rfl⟩ := Tx.transact_snd_ok hcommit
    exact .inr ⟨rfl, rfl, rfl, (settleTx_ok hrun).2, settleTx_bought hrun, rfl⟩
  · exact .inl rfl

section Settle

variable {inp : SettleInput} {env : SettleEnv}

/-- A row stays, with its index, and closed if it was. -/
theorem Settles.row (h : Settles deps inp env a a') {id : RoundId} {row : LotteryDraw}
    (hrow : a.world.db.lotteryDraws id = some row) :
    ∃ row', a'.world.db.lotteryDraws id = some row' ∧ row'.drawIndex = row.drawIndex ∧
      (row.status ≠ .open → row'.status ≠ .open) := by
  obtain ⟨_, hclaimed, -, hdraws⟩ := h.settled.claimed
  rw [hdraws]
  by_cases hid : id = inp.drawId
  · subst hid
    rw [hclaimed] at hrow
    cases hrow
    exact ⟨_, Function.update_self .., rfl, fun _ => by simp [drawnRow]⟩
  · exact ⟨row, by rw [Function.update_of_ne hid, hrow], rfl, fun hne => hne⟩

theorem Settles.ticket (h : Settles deps inp env a a') {t : LotteryTicket}
    (ht : t ∈ a.world.db.lotteryTickets) :
    ∃ t' ∈ a'.world.db.lotteryTickets, boughtOf t' = boughtOf t := by
  have hmem : boughtOf t ∈ bought a'.world.db := by
    rw [h.sold]
    exact List.mem_map_of_mem ht
  exact List.mem_map.mp hmem

theorem Settles.ticket_old (h : Settles deps inp env a a') {t' : LotteryTicket}
    (ht : t' ∈ a'.world.db.lotteryTickets) :
    ∃ t ∈ a.world.db.lotteryTickets, boughtOf t = boughtOf t' := by
  have hmem : boughtOf t' ∈ bought a.world.db := by
    rw [← h.sold]
    exact List.mem_map_of_mem ht
  exact List.mem_map.mp hmem

theorem ids_bought (db : Db) : db.lotteryTickets.map (·.id) = (bought db).map Prod.fst := by
  rw [bought, List.map_map]
  rfl

theorem Books.settle (h : Books deps a) (hsettles : Settles deps inp env a a') : Books deps a' := by
  obtain ⟨claimed, hclaimed, hopen, hdraws⟩ := hsettles.settled.claimed
  refine ⟨?_, ?_, ?_, ?_, ?_, ?_, ?_, ?_, ?_⟩
  · rw [hsettles.txs]
    exact h.landed
  · intro sig i id hkey
    rw [hsettles.keys] at hkey
    obtain ⟨tx, e, t, htx, he, hticketed, rfl⟩ := h.keyed sig i id hkey
    obtain ⟨t', ht', hsame⟩ := hsettles.ticket hticketed.stored
    simp only [boughtOf, Prod.mk.injEq] at hsame
    obtain ⟨row, hrow, hindex⟩ := hticketed.draw
    obtain ⟨row', hrow', hindex', -⟩ := hsettles.row hrow
    rw [hsettles.txs]
    exact ⟨tx, e, t', htx, he, ⟨ht', hsame.2.2.1.trans hticketed.digits,
      hsame.2.2.2.trans hticketed.cost, row', hsame.2.1 ▸ hrow', hindex'.trans hindex⟩, hsame.1⟩
  · rw [hsettles.txs, hsettles.keys]
    exact h.whole
  · rw [hsettles.keys]
    exact h.single
  · rw [ids_bought, hsettles.sold, ← ids_bought]
    exact h.ids
  · intro t' ht' row' hrow' hne
    obtain ⟨t, ht, hsame⟩ := hsettles.ticket_old ht'
    simp only [boughtOf, Prod.mk.injEq] at hsame
    rw [hsettles.settlements]
    by_cases hid : t'.drawId = inp.drawId
    · refine ⟨_, List.mem_cons_self .., hid.symm, ?_⟩
      show t'.id ∈ (findTickets inp.drawId a.world.db).map (·.ticket.id)
      rw [findTickets, List.map_map]
      refine List.mem_map.mpr ⟨t, ?_, hsame.1⟩
      simp [ht, hsame.2.1, hid]
    · rw [hdraws, Function.update_of_ne hid] at hrow'
      obtain ⟨st, hst, hdraw, hmem⟩ := h.closed t ht row' (hsame.2.1 ▸ hrow') hne
      exact ⟨st, List.mem_cons_of_mem _ hst, hdraw.trans hsame.2.1, hsame.1 ▸ hmem⟩
  · rw [hsettles.settlements]
    intro st hst
    rcases List.mem_cons.mp hst with rfl | hst
    · have hrow : a'.world.db.lotteryDraws inp.drawId =
          some (drawnRow inp env (findTickets inp.drawId a.world.db) claimed) := by
        rw [hdraws, Function.update_self]
      exact ⟨hsettles.settled, _, hrow, by simp [drawnRow]⟩
    · obtain ⟨hsettled, row, hrow, hne⟩ := h.drawn st hst
      obtain ⟨row', hrow', -, hclosed⟩ := hsettles.row hrow
      exact ⟨hsettled, row', hrow', hclosed hne⟩
  · rw [hsettles.settlements, List.map_cons]
    refine List.nodup_cons.mpr ⟨?_, h.once⟩
    intro hmem
    obtain ⟨st, hst, hsame⟩ := List.mem_map.mp hmem
    obtain ⟨-, row, hrow, hne⟩ := h.drawn st hst
    rw [hsame, hclaimed] at hrow
    cases hrow
    exact hne hopen
  · rw [hsettles.engines]
    intro process current hcurrent
    obtain ⟨_, hrow, hindex⟩ := h.memory process current hcurrent
    obtain ⟨row', hrow', hindex', -⟩ := hsettles.row hrow
    exact ⟨row', hrow', hindex'.trans hindex⟩

theorem Reads.settle (h : Reads a call) (hsettles : Settles deps inp env a a') :
    Reads a' call := by
  have hrows : ∀ draw : OpenDraw,
      (∃ row, a.world.db.lotteryDraws draw.id = some row ∧ row.drawIndex = draw.drawIndex) →
        ∃ row, a'.world.db.lotteryDraws draw.id = some row ∧ row.drawIndex = draw.drawIndex := by
    rintro draw ⟨_, hrow, hindex⟩
    obtain ⟨row', hrow', hindex', -⟩ := hsettles.row hrow
    exact ⟨row', hrow', hindex'.trans hindex⟩
  cases call with
  | findUser userId signature draw | verify userId signature draw wallet => exact hrows draw h
  | create userId signature draw =>
    obtain ⟨hrow, hne, hdraw, tx, htx, hlog⟩ := h
    exact ⟨hrows draw hrow, hne, hdraw, tx, hsettles.txs ▸ htx, hlog⟩
  | _ => trivial

end Settle

/-! ## Every run -/

/-- What a step can do to the books. -/
theorem step_cases (h : call.step deps a answer = (a', rest)) :
    Quiet a a' ∨
    (∃ userId signature draw events, call = .create userId signature draw events ∧
      Creates deps answer userId signature draw events a a') ∨
    ∃ inp env, Settles deps inp env a a' := by
  cases call with
  | createSeed =>
    cases h
    exact .inl (Untouched.quiet_of_draws ⟨rfl, rfl, rfl, rfl⟩ rfl rfl)
  | createDraw =>
    simp only [Call.step, Prod.mk.injEq] at h
    obtain ⟨rfl, -⟩ := h
    split
    · rename_i haccepts
      exact .inl (quiet_createDraw haccepts)
    · exact .inl (.refl a)
  | commitDraw | revealDraw =>
    cases h
    exact .inl quiet_setAccounts
  | load =>
    simp only [Call.step] at h
    split at h
    · rename_i row hrow
      cases h
      exact .inl (quiet_engine (.inr ⟨row, hrow, rfl⟩))
    · cases h
      exact .inl (.refl a)
  | close =>
    simp only [Call.step] at h
    split at h
    · rename_i current hcurrent
      cases h
      exact .inl (quiet_engine (.inl ⟨current, hcurrent, rfl, rfl⟩))
    · cases h
      exact .inl (.refl a)
  | settle inp env vars =>
    cases h
    rcases settle_cases deps a answer inp env vars with heq | hsettles
    · rw [heq]
      exact .inl (.refl a)
    · exact .inr (.inr ⟨inp, env, hsettles⟩)
  | setPrimaryWallet | setBanned =>
    cases h
    exact .inl quiet_updateUser
  | purchase =>
    cases h
    exact .inl quiet_purchase
  | confirmTicket | findUser =>
    simp only [Call.step] at h
    split at h
    · cases h
      exact .inl (.refl a)
    · split at h <;>
      · cases h
        exact .inl (.refl a)
  | verify =>
    simp only [Call.step] at h
    split at h
    · cases h
      exact .inl (.refl a)
    · split at h
      · cases h
        exact .inl (.refl a)
      · split at h <;>
        · cases h
          exact .inl (.refl a)
  | create userId signature draw events =>
    cases h
    rcases create_cases deps a answer userId signature draw events with heq | hcreates
    · rw [heq]
      exact .inl (.refl a)
    · exact .inr (.inl ⟨userId, signature, draw, events, rfl, hcreates⟩)

theorem Books.step (h : Books deps a) (hreads : Reads a call)
    (hstep : call.step deps a answer = (a', rest)) : Books deps a' := by
  rcases step_cases hstep with hquiet | ⟨_, _, _, _, rfl, hcreates⟩ |
    ⟨inp, env, hsettles⟩
  · exact h.quiet hquiet
  · exact h.create hreads hcreates
  · exact h.settle hsettles

theorem Reads.step {other : Call} (h : Reads a other)
    (hstep : call.step deps a answer = (a', rest)) : Reads a' other := by
  rcases step_cases hstep with hquiet | ⟨_, _, _, _, -, hcreates⟩ |
    ⟨inp, env, hsettles⟩
  · exact h.quiet hquiet
  · exact h.create hcreates
  · exact h.settle hsettles

theorem getOpenDraw_some {process : ProcessId} {now : Time}
    (h : a.getOpenDraw process now = some draw) :
    ∃ current, a.engines.get process = some current ∧ current.isOpen = true ∧
      now < current.drawAt ∧ draw = ⟨current.id, current.drawIndex⟩ := by
  unfold State.getOpenDraw at h
  split at h
  · rename_i current hcurrent
    split at h
    · cases h
    · rename_i hopen
      simp only [Bool.not_eq_true', not_or, Bool.not_eq_false, Nat.not_le] at hopen
      cases h
      exact ⟨current, hcurrent, hopen.1, hopen.2, rfl⟩
  · cases h

/-- What a call goes on with, it may rely on. -/
theorem Reads.goes (h : Books deps a) (hreads : Reads a call)
    (hstep : call.step deps a answer = (a', some call')) : Reads a' call' := by
  cases call with
  | confirmTicket process =>
    simp only [Call.step] at hstep
    split at hstep
    · cases hstep
    · split at hstep
      · cases hstep
      · rename_i draw hdraw
        cases hstep
        obtain ⟨current, hcurrent, -, -, rfl⟩ := getOpenDraw_some hdraw
        exact h.memory process current hcurrent
  | findUser =>
    simp only [Call.step] at hstep
    split at hstep
    · cases hstep
    · split at hstep
      · cases hstep
      · cases hstep
        exact hreads
  | verify =>
    simp only [Call.step] at hstep
    split at hstep
    · cases hstep
    · rename_i tx htx
      split at hstep
      · cases hstep
      · rename_i hfound
        split at hstep
        · rename_i hall
          cases hstep
          exact ⟨hreads, fun hnil => hfound (.inr hnil), fun e he => (hall e he).2, tx, htx, rfl⟩
        · cases hstep
  | load | close =>
    simp only [Call.step] at hstep
    split at hstep <;> cases hstep
  | _ => cases hstep

def protocol (deps : Games.Deps) : Calls.Protocol (service deps) where
  Inv := Books deps
  Holds := Reads
  starts {_ call} _ hbegins := by
    cases call with
    | findUser | verify | create => cases hbegins
    | _ => trivial
  keeps hbooks hreads hstep := hbooks.step hreads (Option.some.inj hstep)
  goes hbooks hreads hstep := hreads.goes hbooks (Option.some.inj hstep)
  stable _ _ hstep hreads := hreads.step (Option.some.inj hstep)

theorem Books.initial {users : UserId → Option User} {scad : Balances Programs.Lottery.Holder} :
    Books deps (.initial users scad) where
  landed _ _ h := by cases h
  keyed _ _ _ h := by cases h
  whole _ _ _ _ h := by cases h
  single _ _ _ h := by cases h
  ids := .nil
  closed _ h := by cases h
  drawn _ h := by cases h
  once := .nil
  memory _ _ h := by cases h

/-! ## Booked transactions -/

/-- Each event of the transaction is exactly one ticket; the settle of its
draw, once there is one, is the only one and brackets it. The tickets of one
batch cost what it paid, up to less than a base unit each. -/
structure Booked (deps : Games.Deps) (a : State) (signature : Signature) (tx : Landed) :
    Prop where
  one : ∀ i e, tx.events[i]? = some e → ∃ t, Ticketed a tx e t ∧
    ∀ t' ∈ a.world.db.lotteryTickets, a.keys.get (signature, i) = some t'.id ↔ t' = t
  apart : ∀ i j id, a.keys.get (signature, i) = some id → a.keys.get (signature, j) = some id →
    i = j
  drawn : ∀ i t, t ∈ a.world.db.lotteryTickets → a.keys.get (signature, i) = some t.id →
    ∀ row, a.world.db.lotteryDraws t.drawId = some row → row.status ≠ .open →
      ∃ st ∈ a.settlements, st.inp.drawId = t.drawId ∧ t.id ∈ st.tickets.map (·.ticket.id) ∧
        Settled deps st.inp st.env st.before st.after ∧
        ∀ st' ∈ a.settlements, st'.inp.drawId = t.drawId → st' = st
  cost : ∀ ix, tx.batches = [ix] → recordedCost tx.events.length ≤ tx.spent ∧
    tx.spent < recordedCost tx.events.length + tx.events.length

theorem Books.booked (h : Books deps a) {tx : Landed} (htx : a.txs.get signature = some tx)
    {i : Nat} {id : EntryId} (hkey : a.keys.get (signature, i) = some id) :
    Booked deps a signature tx where
  one j e he := by
    obtain ⟨hj, -⟩ := List.getElem?_eq_some_iff.mp he
    obtain ⟨id', hid'⟩ := Option.isSome_iff_exists.mp (h.whole signature i id tx hkey htx j hj)
    obtain ⟨_, _, t, htx', he', hticketed, rfl⟩ := h.keyed signature j id' hid'
    rw [htx] at htx'
    cases htx'
    rw [he] at he'
    cases he'
    refine ⟨t, hticketed, ?_⟩
    intro t' ht'
    rw [hid', Option.some.injEq]
    constructor
    · intro heq
      exact (List.inj_on_of_nodup_map h.ids hticketed.stored ht' heq).symm
    · rintro rfl
      rfl
  apart j k id' hj hk := (Prod.mk.inj (h.single _ _ id' hj hk)).2
  drawn j t ht _ row hrow hne := by
    obtain ⟨st, hst, hdraw, hmem⟩ := h.closed t ht row hrow hne
    refine ⟨st, hst, hdraw, hmem, (h.drawn st hst).1, ?_⟩
    intro st' hst' hdraw'
    exact List.inj_on_of_nodup_map h.once hst' hst (hdraw'.trans hdraw.symm)
  cost _ hone := (h.landed signature tx htx).one_batch hone

/-! ## Confirmations that go through -/

/-- The ids of new tickets are new. -/
structure Fresh (a : State) (answer : Answer) (n : Nat) : Prop where
  distinct : ∀ i < n, ∀ j < n, answer.randomUUID i = answer.randomUUID j → i = j
  unused : ∀ i < n, answer.randomUUID i ∉ a.world.db.lotteryTickets.map (·.id)

/-- The draw is open, and the database does not fail. -/
structure Commits (a : State) (answer : Answer) (drawId : RoundId) : Prop where
  isOpen : ∃ row, a.world.db.lotteryDraws drawId = some row ∧ row.status = .open
  failAt : answer.failAt = none

theorem Fresh.nodup (h : Fresh a answer events.length) (deps : Games.Deps) (userId : UserId)
    (draw : OpenDraw)
    (hids : (a.world.db.lotteryTickets.map (·.id)).Nodup) :
    (((ticketsOf deps answer userId draw events).reverse ++ a.world.db.lotteryTickets).map
      (·.id)).Nodup := by
  rw [List.map_append, List.map_reverse, ids_ticketsOf, List.nodup_append]
  refine ⟨?_, hids, ?_⟩
  · rw [List.nodup_reverse]
    refine List.Nodup.map_on ?_ List.nodup_range
    intro i hi j hj heq
    exact h.distinct i (List.mem_range.mp hi) j (List.mem_range.mp hj) heq
  · intro id hnew id' hold
    rintro rfl
    obtain ⟨i, hi, rfl⟩ := List.mem_map.mp (List.mem_reverse.mp hnew)
    exact h.unused i (List.mem_range.mp hi) hold

theorem assertDrawStillOpen_clear {drawId : RoundId} {row : LotteryDraw} :
    Tx.Succeeds (fun db => db.lotteryDraws drawId = some row ∧ row.status = .open)
      (assertDrawStillOpen drawId) fun _ _ => True := by
  refine Tx.Succeeds.bind (Q := fun count _ => count = 1) (Tx.Succeeds.statement ?_) ?_
  · rintro db ⟨hrow, hopen⟩
    have hone : (updateManyRow db.lotteryDraws drawId (·.status == .open)
        fun d => { d with status := .open }).1 = 1 := by
      simp [updateManyRow, hrow, hopen]
    exact ⟨_, _, rfl, hone⟩
  · intro count
    refine Tx.Succeeds.ite (fun hzero => ?_) (fun _ => Tx.Succeeds.pure fun _ _ => trivial)
    intro s _ hone
    omega

theorem confirmTx_clear {drawId : RoundId} {tickets : List LotteryTicket} {db : Db}
    {row : LotteryDraw} (hrow : db.lotteryDraws drawId = some row) (hopen : row.status = .open)
    (hids : ((tickets.reverse ++ db.lotteryTickets).map (·.id)).Nodup) :
    ∃ db', (Tx.transact (confirmTx drawId tickets) () db none).2 = .ok ((), db') := by
  let P (rest : List LotteryTicket) (db : Db) : Prop :=
    ((rest.reverse ++ db.lotteryTickets).map (·.id)).Nodup ∧
      db.lotteryDraws drawId = some row ∧ row.status = .open
  have heach : ∀ rest, Tx.Succeeds (P rest) (Tx.each (fun t => do
      let _ ← Tx.statement (createManyTickets [t])) rest : DbTx Unit Unit) fun _ => P [] := by
    intro rest
    induction rest with
    | nil => exact Tx.Succeeds.pure fun _ h => h
    | cons ticket rest ih =>
      refine Tx.Succeeds.bind (Q := fun _ => P rest) ?_ fun _ => ih
      refine Tx.Succeeds.bind (Q := fun _ => P rest) (Tx.Succeeds.statement ?_)
        fun _ => Tx.Succeeds.pure fun _ h => h
      rintro db ⟨hnodup, hdraw⟩
      rw [List.reverse_cons, List.append_assoc] at hnodup
      have hone : (([ticket] ++ db.lotteryTickets).map (·.id)).Nodup := by
        rw [List.map_append] at hnodup
        exact (List.nodup_append.mp hnodup).2.1
      exact ⟨_, _, if_pos hone, hnodup, hdraw⟩
  have hall : Tx.Succeeds (P tickets) (confirmTx drawId tickets) fun _ _ => True :=
    (heach tickets).bind fun _ =>
      assertDrawStillOpen_clear.imp (fun _ hP => hP.2) fun _ _ _ => trivial
  obtain ⟨_, _, db', hcommit, -⟩ := hall.transact ⟨hids, hrow, hopen⟩ ()
  exact ⟨db', by rw [hcommit]⟩

/-- A confirmation that comes to its commit while the draw is open. -/
theorem create_booked (h : Books deps a) (hreads : Reads a (.create userId signature draw events))
    (hcommits : Commits a answer draw.id) (hfresh : Fresh a answer events.length) :
    ∃ tx, a.txs.get signature = some tx ∧
      Booked deps (a.create deps answer userId signature draw events) signature tx := by
  obtain ⟨hrow, hne, hdraw, tx, htx, hlog⟩ := hreads
  refine ⟨tx, htx, ?_⟩
  have hpos : 0 < events.length := List.length_pos_iff.mpr hne
  by_cases hkeyed : ∃ i id, a.keys.get (signature, i) = some id
  · -- it has been confirmed before
    obtain ⟨i, id, hkey⟩ := hkeyed
    have hsame : a.create deps answer userId signature draw events = a := by
      have hlength : tx.events.length = events.length := by
        rw [← (h.landed signature tx htx).log, hlog]
      have hzero := h.whole signature i id tx hkey htx 0 (hlength ▸ hpos)
      unfold State.create
      rw [if_pos]
      simp only [List.any_eq_true, List.mem_range]
      exact ⟨0, hpos, hzero⟩
    rw [hsame]
    exact h.booked htx hkey
  · have hfree : ¬ (List.range events.length).any fun i =>
        (a.keys.get (signature, i)).isSome := by
      simp only [List.any_eq_true, List.mem_range, not_exists, not_and]
      intro i _ hsome
      obtain ⟨id, hkey⟩ := Option.isSome_iff_exists.mp hsome
      exact hkeyed ⟨i, id, hkey⟩
    obtain ⟨_, hfound, hopen⟩ := hcommits.isOpen
    obtain ⟨_, hcommit⟩ := confirmTx_clear hfound hopen (hfresh.nodup deps userId draw h.ids)
    have hcreates : Creates deps answer userId signature draw events a
        (a.create deps answer userId signature draw events) := by
      rcases create_cases deps a answer userId signature draw events with heq | hcreates
      · unfold State.create at heq
        rw [if_neg hfree, hcommits.failAt, hcommit] at heq
        have hkeys := congrArg (fun b : State => b.keys.get (signature, 0)) heq
        simp only [get_insertKeys, hpos, and_self, if_true] at hkeys
        have hnone : a.keys.get (signature, 0) = none :=
          Option.eq_none_iff_forall_ne_some.mpr fun id hkey => hkeyed ⟨0, id, hkey⟩
        rw [hnone] at hkeys
        cases hkeys
      · exact hcreates
    have hbooks := h.create ⟨hrow, hne, hdraw, tx, htx, hlog⟩ hcreates
    exact hbooks.booked (hcreates.txs ▸ htx) (hcreates.get_new hpos)

/-- The signature is submitted by the account whose wallet bought, to a process
whose current draw is that of the tickets and open. -/
structure Confirmable (a : State) (answer : Answer) (process : ProcessId) (userId : UserId)
    (tx : Landed) (current : Current) : Prop where
  allowed : answer.refused = false
  found : answer.found = true
  engine : a.engines.get process = some current
  isOpen : current.isOpen = true
  early : answer.now < current.drawAt
  user : ∃ user, a.world.db.users userId = some user ∧ user.banned = false ∧
    user.walletAddress = tx.buyer
  bought : tx.events ≠ []
  draw : ∀ e ∈ tx.events, e.draw_index = current.drawIndex

theorem Landed.Sound.buyer {tx : Landed} (h : tx.Sound) : ∀ e ∈ tx.events, e.buyer = tx.buyer := by
  intro e he
  rw [h.events] at he
  obtain ⟨ix, -, hix⟩ := List.mem_flatMap.mp he
  cases ix with
  | buyTicket =>
    simp only [Instruction.tickets, List.mem_singleton] at hix
    rw [hix]
  | buyTickets =>
    obtain ⟨p, -, rfl⟩ := List.mem_map.mp hix
    rfl
  | other => cases hix

/-- Such a confirmation comes to its commit. -/
theorem Confirmable.alone (h : Books deps a) {process : ProcessId} {tx : Landed}
    {current : Current} (htx : a.txs.get signature = some tx)
    (hconf : Confirmable a answer process userId tx current) :
    (service deps).alone answer 4 a (.confirmTicket process userId signature) =
      a.create deps answer userId signature ⟨current.id, current.drawIndex⟩ tx.events := by
  obtain ⟨user, huser, hbanned, hwallet⟩ := hconf.user
  have hsound := h.landed signature tx htx
  have hopen : a.getOpenDraw process answer.now = some ⟨current.id, current.drawIndex⟩ := by
    have hearly : ¬ current.drawAt ≤ answer.now := Nat.not_le.mpr hconf.early
    simp [State.getOpenDraw, hconf.engine, hconf.isOpen, hearly]
  have hmine : ∀ e ∈ verifyTicketTx tx,
      e.buyer = user.walletAddress ∧ e.draw_index = current.drawIndex := by
    rw [hsound.log, hwallet]
    exact fun e he => ⟨hsound.buyer e he, hconf.draw e he⟩
  have hne : verifyTicketTx tx ≠ [] := by
    rw [hsound.log]
    exact hconf.bought
  have hstart : (service deps).step a answer (.confirmTicket process userId signature) =
      some (a, some (.findUser userId signature ⟨current.id, current.drawIndex⟩)) := by
    simp [service, Call.step, hconf.allowed, hopen]
  have hread : (service deps).step a answer
        (.findUser userId signature ⟨current.id, current.drawIndex⟩) =
      some (a, some (.verify userId signature ⟨current.id, current.drawIndex⟩
        user.walletAddress)) := by
    simp [service, Call.step, huser, hbanned]
  have hverify : (service deps).step a answer
        (.verify userId signature ⟨current.id, current.drawIndex⟩ user.walletAddress) =
      some (a, some (.create userId signature ⟨current.id, current.drawIndex⟩ tx.events)) := by
    simp only [service, Call.step, htx, hconf.found, hne, Bool.not_true, Bool.false_eq_true,
      or_self, if_false]
    rw [if_pos hmine, hsound.log]
  rw [Calls.alone_goes hstart, Calls.alone_goes hread, Calls.alone_goes hverify]
  exact Calls.alone_done rfl

/-- In every run: a transaction with a ticket on record is booked; so is one
whose confirmation comes to its commit while the draw is open; and a
confirmation made while the draw is open in memory comes there. -/
theorem books_agree (deps : Games.Deps) {users : UserId → Option User}
    {scad : Balances Programs.Lottery.Holder} {es : List (Calls.Event Call Answer)}
    {s : Calls.System State Call}
    (hrun : run (service deps).next (.boot (.initial users scad)) es = some s) :
    (∀ signature tx i id, s.data.txs.get signature = some tx →
      s.data.keys.get (signature, i) = some id → Booked deps s.data signature tx) ∧
    (∀ c userId signature draw events answer,
      s.calls.get c = some (.create userId signature draw events) →
        Commits s.data answer draw.id → Fresh s.data answer events.length →
          ∃ tx, s.data.txs.get signature = some tx ∧
            Booked deps (s.data.create deps answer userId signature draw events) signature tx) ∧
    ∀ process userId signature tx current answer, s.data.txs.get signature = some tx →
      Confirmable s.data answer process userId tx current →
        Commits s.data answer current.id → Fresh s.data answer tx.events.length →
          Booked deps ((service deps).alone answer 4 s.data
            (.confirmTicket process userId signature)) signature tx := by
  have hsound := (protocol deps).sound Books.initial hrun
  have hbooks : Books deps s.data := hsound.inv
  refine ⟨?_, ?_, ?_⟩
  · intro signature tx i id htx hkey
    exact hbooks.booked htx hkey
  · intro c userId signature draw events answer hcall hcommits hfresh
    exact create_booked hbooks (hsound.holds c _ hcall) hcommits hfresh
  · intro process userId signature tx current answer htx hconf hcommits hfresh
    rw [hconf.alone hbooks htx]
    have hreads : Reads s.data
        (.create userId signature ⟨current.id, current.drawIndex⟩ tx.events) :=
      ⟨hbooks.memory process current hconf.engine, hconf.bought, hconf.draw, tx, htx,
        (hbooks.landed signature tx htx).log⟩
    obtain ⟨_, htx', hbooked⟩ := create_booked hbooks hreads hcommits hfresh
    rw [htx] at htx'
    cases htx'
    exact hbooked

namespace Sample

def games : Games.Deps where
  sha := ⟨fun _ => 0, fun _ _ => 0⟩
  economyEnforced := false
  publicPlayerId _ := "player"
  referralCommission _ _ _ := 0
  scadBaseToLamports scadBase := scadBase
  periodKeys _ := ("day", "week")

def users : UserId → Option User
  | 1 => some ⟨none, "wallet", false, none, none, none, fun _ => 0, 0, 0, 0, 0, 0⟩
  | _ => none

def scad : Balances Programs.Lottery.Holder := .set .empty (.user "wallet") (10 ^ 12)

/-- The environment at a time, in seconds. -/
def moment (seconds : Nat) : Answer := ⟨seconds * 1000, seconds, false, true, none, id⟩

/-- A call from its start to its end. -/
def made (c : Call) (answer : Answer) (steps : Nat) : List (Calls.Event Call Answer) :=
  .start 1 c :: List.replicate steps (.run 1 answer)

/-- The draw 7 is opened, until second 1000. -/
def opened : List (Calls.Event Call Answer) :=
  made (.createSeed 3 ⟨"hash", "seed", "client", none⟩) (moment 1) 1 ++
  made (.createDraw 2 ⟨7, 3, ⟨"hash", "seed", "client", none⟩, 0, []⟩) (moment 1) 1 ++
  made (.commitDraw 7 1000000) (moment 1) 1 ++ made (.load 1 2 1000000) (moment 1) 1

/-- Two tickets of one batch, before the draw. -/
def bought : List (Calls.Event Call Answer) :=
  made (.purchase 5 "wallet" [.buyTickets 7 [[1, 2, 3, 4, 5, 6], [6, 5, 4, 3, 2, 1]]])
    (moment 999) 1

def drawn : List (Calls.Event Call Answer) :=
  made (.settle ⟨2, 7, 3, "seed", "hash", "client", 0, 0, 0, [1, 2, 3, 4, 5, 6], 0, "reveal", none,
    none, true⟩ ⟨true, 1001, id⟩ Captured.init) (moment 1001) 1

/-- The purchase is confirmed before the draw. -/
def confirmed : List (Calls.Event Call Answer) :=
  opened ++ bought ++ made (.confirmTicket 1 1 5) (moment 999) 4 ++ drawn

/-- The purchase is submitted at the time of the draw. -/
def late : List (Calls.Event Call Answer) :=
  opened ++ bought ++ made (.confirmTicket 1 1 5) (moment 1000) 1 ++ drawn

theorem confirmed_runs : (run (service games).next (.boot (.initial users scad)) confirmed).any
    (fun s => (s.data.txs.get 5).isSome && decide (s.data.keys.get (5, 1) = some 1)) = true := by
  decide +kernel

theorem late_runs : (run (service games).next (.boot (.initial users scad)) late).any
    (fun s => (s.data.txs.get 5).any (fun tx => decide (tx.events.length = 2)) &&
      decide (s.data.settlements.map (·.inp.drawIndex) = [7] ∧
        s.data.world.db.lotteryTickets = [] ∧ s.data.keys.get (5, 0) = none)) = true := by
  decide +kernel

end Sample

theorem books_agree_confirmed : ∃ s tx,
    run (service Sample.games).next (.boot (.initial Sample.users Sample.scad))
        Sample.confirmed = some s ∧
      s.data.txs.get 5 = some tx ∧ Booked Sample.games s.data 5 tx := by
  obtain ⟨s, hs, h⟩ := (Option.any_eq_true _ _).mp Sample.confirmed_runs
  obtain ⟨htx, hkey⟩ := Bool.and_eq_true_iff.mp h
  obtain ⟨tx, htx⟩ := Option.isSome_iff_exists.mp htx
  exact ⟨s, tx, hs, htx, (books_agree Sample.games hs).1 5 tx 1 1 htx (of_decide_eq_true hkey)⟩

/-- A purchase lands before the draw and is submitted at its time: its tickets
are not recorded, and the draw is settled without them. -/
theorem ticket_unconfirmed : ∃ s tx,
    run (service Sample.games).next (.boot (.initial Sample.users Sample.scad))
        Sample.late = some s ∧
      s.data.txs.get 5 = some tx ∧ tx.events.length = 2 ∧
      s.data.settlements.map (·.inp.drawIndex) = [7] ∧ s.data.world.db.lotteryTickets = [] := by
  obtain ⟨s, hs, h⟩ := (Option.any_eq_true _ _).mp Sample.late_runs
  obtain ⟨htx, hbooks⟩ := Bool.and_eq_true_iff.mp h
  obtain ⟨tx, htx, hevents⟩ := (Option.any_eq_true _ _).mp htx
  obtain ⟨hdrawn, htickets, -⟩ := of_decide_eq_true hbooks
  exact ⟨s, tx, hs, htx, of_decide_eq_true hevents, hdrawn, htickets⟩

end Scadium.Games.Lottery.OnChain
