/-
Scadium.Games.Lottery.Prizes — the on-chain prizes of a draw, paid by the engine
and by the sweep (`lottery.engine.ts`, `reconciliation.service.ts`, `pay_prize` of
`scadium_lottery`).

The program pays a wallet once for a draw, whatever the amount. The sweep reads no
more tickets than its limit, so a winner may be paid for some of them, and the rest
stays unpaid for good; and a winner who has changed wallets is paid once more for
what is not marked.

A draw is here from its settle on, with the prizes of its tickets. A step is what
runs between two awaits. A transaction that was sent may land after its answer, or
never. `payments` records what has landed.

- Groups: a group of what a settle or a sweep reads has the tickets of one winner in
  one draw and their sum (`jobs_of_rows`). Where the read is not cut inside them, these
  are all the winner's winning tickets of the draw (`whole_jobs`).
- The invariant: every group that is queued, under way or paid is whole; it goes to the
  winner's wallet as long as it is not marked, so all groups of one winner in one draw
  go to one wallet; and that wallet's `Payout` account is there once one has landed.
- Regular runs: no read is cut inside a winner's tickets, no winner changes wallets while
  a prize is not marked, and every payment that lands is reported to a caller that waits.
  Engine and sweeps may overlap, since the account lets one of their payments through.
-/
import Scadium.Lib.Runs
import Scadium.Lib.Table

namespace Scadium.Games.Lottery.Prizes

open Scadium.Lib

abbrev UserId := Nat
abbrev TicketId := Nat
abbrev Address := Nat

/-- A ticket of a drawn draw; it has won if its prize is positive. -/
structure Ticket where
  drawIndex : Nat
  userId : UserId
  payoutScadBase : Nat
  prizeTxSignature : Option Nat
  deriving DecidableEq

def Ticket.isUnpaid (t : Ticket) : Bool :=
  decide (0 < t.payoutScadBase) && t.prizeTxSignature.isNone

/-- A ticket as it is read, with its user's wallet. -/
structure Row where
  id : TicketId
  ticket : Ticket
  walletAddress : Address
  deriving DecidableEq

/-- A group of tickets to pay; `userId` is whose they are. -/
structure Job where
  drawIndex : Nat
  walletAddress : Address
  userId : UserId
  amountScadBase : Nat
  ticketIds : List TicketId
  deriving DecidableEq

/-- `groups` and `prizeByWallet` -/
def Row.key (r : Row) : Nat × Address := (r.ticket.drawIndex, r.walletAddress)

def addRow (g : Option Job) (r : Row) : Job :=
  let g := g.getD ⟨r.ticket.drawIndex, r.walletAddress, r.ticket.userId, 0, []⟩
  { g with
    amountScadBase := g.amountScadBase + r.ticket.payoutScadBase
    ticketIds := g.ticketIds ++ [r.id] }

def jobs (rows : List Row) : List Job := (groupBy Row.key addRow rows).map Prod.snd

structure State where
  users : Table UserId Address
  tickets : Table TicketId Ticket
  draws : Nat
  /-- what the engine and the sweeps have still to pay -/
  queues : Table Nat (List Job)
  /-- the `pay_prize` calls that wait for their answer -/
  calls : Table Nat Job
  /-- the transactions that have not landed -/
  sent : Table Nat Job
  /-- the `Payout` accounts -/
  payouts : Table (Nat × Address) Nat
  drawn : Nat
  payments : List (Nat × Job)

def State.init : State where
  users := .empty
  tickets := .empty
  draws := 0
  queues := .empty
  calls := .empty
  sent := .empty
  payouts := .empty
  drawn := 0
  payments := []

inductive Event where
  | createUser (userId : UserId) (walletAddress : Address)
  | setPrimaryWallet (userId : UserId) (walletAddress : Address)
  /-- the transaction of a settle: the owners of the tickets and their prizes; the
  treasury may not cover them -/
  | settle (results : List (UserId × Nat)) (deferred : Bool)
  /-- `sweepLotteryPrizes`, what it reads -/
  | sweep (limit : Nat) (ids : List TicketId)
  /-- the next group of a queue, skipped where the budget does not cover it -/
  | pay (queue : Nat) (skipped : Bool)
  | land (call : Nat) (accepted : Bool)
  /-- the answer, with what is marked after it -/
  | finish (call : Nat) (marked : Bool)
  | kill
  deriving DecidableEq

namespace State

variable (s : State)

def setWallet (userId : UserId) (walletAddress : Address) : Option State :=
  if (s.users.find fun _ w => w == walletAddress).isSome then none
  else some { s with users := s.users.set userId walletAddress }

/-! ## Settles and sweeps -/

/-- The tickets with their users' wallets; only unpaid winning ones are grouped. -/
def rows (ids : List TicketId) : List Row :=
  ids.filterMap fun id => (s.tickets.get id).bind fun t =>
    if t.isUnpaid then (s.users.get t.userId).map (Row.mk id t) else none

def insertTicket (t : Ticket) : State :=
  { s with tickets := s.tickets.set s.drawn t, drawn := s.drawn + 1 }

/-- The tickets of a draw, with their prizes. -/
def insertTickets (drawIndex : Nat) (results : List (UserId × Nat)) : State :=
  results.foldl (fun s r => s.insertTicket ⟨drawIndex, r.1, r.2, none⟩) s

def enqueue (jobs : List Job) : State :=
  { s with queues := s.queues.set s.drawn jobs, drawn := s.drawn + 1 }

def settle (results : List (UserId × Nat)) (deferred : Bool) : Option State :=
  if results.all fun r => (s.users.get r.1).isSome then
    let settled := { s.insertTickets s.draws results with draws := s.draws + 1 }
    let ids := (List.range results.length).map (s.drawn + ·)
    some (if deferred then settled else settled.enqueue (jobs (settled.rows ids)))
  else none

/-- `take: limit`, in no order -/
def reads (limit : Nat) (ids : List TicketId) : Bool :=
  decide ids.Nodup && ids.all (fun id => (s.tickets.get id).any Ticket.isUnpaid) &&
    decide (ids.length ≤ limit) &&
    (ids.length == limit || s.tickets.entries.all fun e => !e.2.isUnpaid || ids.contains e.1)

def sweep (limit : Nat) (ids : List TicketId) : Option State :=
  if s.reads limit ids then some (s.enqueue (jobs (s.rows ids))) else none

/-! ## Payments -/

/-- `lotteryPayPrize`, as far as the transaction is sent -/
def request (job : Job) : State := { s with
  calls := s.calls.set s.drawn job
  sent := s.sent.set s.drawn job
  drawn := s.drawn + 1 }

def pay (queue : Nat) (skipped : Bool) : Option State :=
  match s.queues.get queue with
  | some (job :: rest) =>
      let popped := { s with queues := s.queues.set queue rest }
      some (if skipped then popped else popped.request job)
  | _ => none

/-- Whether the program pays: `init` of the account, and `amount > 0`. -/
def pays (job : Job) : Bool :=
  (s.payouts.get (job.drawIndex, job.walletAddress)).isNone && decide (0 < job.amountScadBase)

/-- `pay_prize` -/
def land (call : Nat) (accepted : Bool) : Option State :=
  match s.sent.get call with
  | some job =>
      let s := { s with sent := s.sent.erase call }
      some (if accepted && s.pays job then
        { s with
          payouts := s.payouts.set (job.drawIndex, job.walletAddress) job.amountScadBase
          payments := (call, job) :: s.payments }
        else s)
  | none => none

/-- `lotteryTicket.updateMany` -/
def mark (call : Nat) (ids : List TicketId) : State :=
  { s with tickets := s.tickets.map fun id t =>
      if id ∈ ids then { t with prizeTxSignature := some call } else t }

/-- A signature is returned only for a transaction that has landed. -/
def finish (call : Nat) (marked : Bool) : Option State :=
  match s.calls.get call with
  | some job =>
      let done := { s with calls := s.calls.erase call }
      if marked then
        if (call, job) ∈ s.payments then some (done.mark call job.ticketIds) else none
      else some done
  | none => none

end State

def step (s : State) : Event → Option State
  | .createUser userId walletAddress =>
      if (s.users.get userId).isSome then none else s.setWallet userId walletAddress
  | .setPrimaryWallet userId walletAddress =>
      if (s.users.get userId).isSome then s.setWallet userId walletAddress else none
  | .settle results deferred => s.settle results deferred
  | .sweep limit ids => s.sweep limit ids
  | .pay queue skipped => s.pay queue skipped
  | .land call accepted => s.land call accepted
  | .finish call marked => s.finish call marked
  | .kill => some { s with queues := .empty, calls := .empty }

/-! ## What is right -/

namespace State

variable (s : State)

/-- The prizes of all winning tickets of a user in a draw. -/
def total (drawIndex : Nat) (userId : UserId) : Nat :=
  s.tickets.sum fun t =>
    if t.drawIndex = drawIndex ∧ t.userId = userId then t.payoutScadBase else 0

/-- Every winner is paid completely and once, and a ticket is marked by the payment
that included it, and by no other. -/
structure Right : Prop where
  once : (s.payments.map fun p => (p.2.drawIndex, p.2.userId)).Nodup
  complete : ∀ p ∈ s.payments, p.2.amountScadBase = s.total p.2.drawIndex p.2.userId
  included : ∀ id t call, s.tickets.get id = some t → t.prizeTxSignature = some call →
    ∃ job, (call, job) ∈ s.payments ∧ id ∈ job.ticketIds
  marked : ∀ p ∈ s.payments, s.calls.get p.1 = none → ∀ id ∈ p.2.ticketIds, ∀ t,
    s.tickets.get id = some t → t.prizeTxSignature = some p.1

end State

/-- A winner with a prize that is not marked keeps the wallet; a sweep reads all or none of
a winner's unpaid tickets of a draw; a payment lands while its caller waits, and is
reported. -/
def Regular (s : State) : Event → Prop
  | .setPrimaryWallet userId _ =>
      ∀ e ∈ s.tickets.entries, e.2.userId = userId → e.2.isUnpaid = false
  | .sweep _ ids => ∀ r ∈ s.tickets.entries, ∀ e ∈ s.tickets.entries, r.1 ∈ ids →
      e.2.isUnpaid = true → e.2.drawIndex = r.2.drawIndex → e.2.userId = r.2.userId → e.1 ∈ ids
  | .land call accepted => accepted = true → (s.calls.get call).isSome = true
  | .finish call false => ∀ p ∈ s.payments, p.1 ≠ call
  | .kill => ∀ p ∈ s.payments, s.calls.get p.1 = none
  | _ => True

instance (s : State) : (e : Event) → Decidable (Regular s e)
  | .setPrimaryWallet userId _ => inferInstanceAs (Decidable (∀ e ∈ s.tickets.entries,
      e.2.userId = userId → e.2.isUnpaid = false))
  | .sweep _ ids => inferInstanceAs (Decidable (∀ r ∈ s.tickets.entries,
      ∀ e ∈ s.tickets.entries, r.1 ∈ ids → e.2.isUnpaid = true →
        e.2.drawIndex = r.2.drawIndex → e.2.userId = r.2.userId → e.1 ∈ ids))
  | .land call accepted =>
      inferInstanceAs (Decidable (accepted = true → (s.calls.get call).isSome = true))
  | .finish call false => inferInstanceAs (Decidable (∀ p ∈ s.payments, p.1 ≠ call))
  | .kill => inferInstanceAs (Decidable (∀ p ∈ s.payments, s.calls.get p.1 = none))
  | .finish _ true | .createUser .. | .settle .. | .pay .. => .isTrue trivial

/-! ## Groups -/

section Groups

variable {s : State} {ids : List TicketId} {drawIndex : Nat} {userId : UserId}

theorem foldl_addRow (rows : List Row) (g : Job) :
    rows.foldl (fun g r => some (addRow g r)) (some g) = some { g with
      amountScadBase := g.amountScadBase + weight (fun r => r.ticket.payoutScadBase) rows
      ticketIds := g.ticketIds ++ rows.map Row.id } := by
  induction rows generalizing g with
  | nil => simp
  | cons r rows ih =>
    rw [List.foldl_cons, ih]
    simp [addRow, Nat.add_assoc]

/-- A group has the rows of its key, and their sum. -/
theorem jobs_of_rows {rows : List Row} {j : Job} (hj : j ∈ jobs rows) :
    ∃ r ∈ rows, j = ⟨r.ticket.drawIndex, r.walletAddress, r.ticket.userId,
      weight (fun r => r.ticket.payoutScadBase) (rows.filter (·.key = r.key)),
      (rows.filter (·.key = r.key)).map Row.id⟩ := by
  obtain ⟨p, hp, rfl⟩ := List.mem_map.mp hj
  have hfold := groupBy_fold Row.key addRow rows p hp
  cases hrows : rows.filter (·.key = p.1) with
  | nil =>
    rw [hrows] at hfold
    cases hfold
  | cons r rest =>
    have hr : r ∈ rows.filter (·.key = p.1) := hrows ▸ List.mem_cons_self ..
    have hkey : r.key = p.1 := by simpa using (List.mem_filter.mp hr).2
    refine ⟨r, (List.mem_filter.mp hr).1, ?_⟩
    rw [hrows, List.foldl_cons, foldl_addRow] at hfold
    rw [hkey, hrows, ← Option.some.inj hfold]
    simp [addRow]

theorem mem_rows {r : Row} : r ∈ s.rows ids ↔ r.id ∈ ids ∧ s.tickets.get r.id = some r.ticket ∧
    r.ticket.isUnpaid = true ∧ s.users.get r.ticket.userId = some r.walletAddress := by
  simp only [State.rows, List.mem_filterMap, Option.bind_eq_some_iff]
  constructor
  · rintro ⟨_, hid, t, ht, hr⟩
    split at hr
    · rename_i hunpaid
      obtain ⟨w, hw, rfl⟩ := Option.map_eq_some_iff.mp hr
      exact ⟨hid, ht, hunpaid, hw⟩
    · cases hr
  · rintro ⟨hid, ht, hunpaid, hw⟩
    exact ⟨r.id, hid, r.ticket, ht, by simp [hunpaid, hw]⟩

theorem nodup_rows (h : ids.Nodup) : ((s.rows ids).map Row.id).Nodup := by
  have hrows : (s.rows ids).Nodup := by
    refine h.filterMap fun a b r ha hb => ?_
    have hid {id : TicketId} (h : r ∈ (s.tickets.get id).bind fun t =>
        if t.isUnpaid then (s.users.get t.userId).map (Row.mk id t) else none) : r.id = id := by
      obtain ⟨t, -, hr⟩ := Option.bind_eq_some_iff.mp h
      split at hr
      · obtain ⟨w, -, rfl⟩ := Option.map_eq_some_iff.mp hr
        rfl
      · cases hr
    exact (hid ha).symm.trans (hid hb)
  refine hrows.map_on fun r hr r' hr' heq => ?_
  obtain ⟨-, ht, -, hw⟩ := mem_rows.mp hr
  obtain ⟨-, ht', -, hw'⟩ := mem_rows.mp hr'
  obtain ⟨id, ticket, wallet⟩ := r
  obtain ⟨id', ticket', wallet'⟩ := r'
  obtain rfl : id = id' := heq
  obtain rfl : ticket = ticket' := Option.some.inj (ht.symm.trans ht')
  obtain rfl : wallet = wallet' := Option.some.inj (hw.symm.trans hw')
  rfl

/-- All winning tickets of a user in a draw, and what they win together. -/
structure State.Whole (s : State) (j : Job) : Prop where
  tickets : ∀ id, id ∈ j.ticketIds ↔ ∃ t, s.tickets.get id = some t ∧
    t.drawIndex = j.drawIndex ∧ t.userId = j.userId ∧ 0 < t.payoutScadBase
  amount : j.amountScadBase = s.total j.drawIndex j.userId

/-- The tickets that a user has won in a draw, among the entries of the table. -/
def State.won (s : State) (drawIndex : Nat) (userId : UserId) : List (TicketId × Ticket) :=
  s.tickets.entries.filter fun e =>
    decide (e.2.drawIndex = drawIndex ∧ e.2.userId = userId ∧ 0 < e.2.payoutScadBase)

theorem mem_won {e : TicketId × Ticket} : e ∈ s.won drawIndex userId ↔
    s.tickets.get e.1 = some e.2 ∧ e.2.drawIndex = drawIndex ∧ e.2.userId = userId ∧
      0 < e.2.payoutScadBase := by
  simp [State.won, Table.get_eq_some]

theorem total_eq : s.total drawIndex userId =
    weight (fun e => e.2.payoutScadBase) (s.won drawIndex userId) := by
  rw [State.total, Table.sum, State.won, ← weight_filter (p := fun e : TicketId × Ticket =>
    decide (e.2.drawIndex = drawIndex ∧ e.2.userId = userId ∧ 0 < e.2.payoutScadBase))]
  · refine weight_congr fun e he => ?_
    obtain ⟨hdraw, huser, -⟩ := of_decide_eq_true (List.mem_filter.mp he).2
    exact if_pos ⟨hdraw, huser⟩
  · intro e _ hnot
    split
    · rename_i h
      by_contra hne
      exact of_decide_eq_false hnot ⟨h.1, h.2, Nat.pos_of_ne_zero hne⟩
    · rfl

/-- A read that is not cut inside a winner's tickets makes whole groups. -/
theorem whole_jobs (hwallets : ∀ u v w, s.users.get u = some w → s.users.get v = some w → u = v)
    (hnodup : ids.Nodup)
    (huncut : ∀ id ∈ ids, ∀ t, s.tickets.get id = some t → t.isUnpaid = true →
      ∀ id' t', s.tickets.get id' = some t' → t'.drawIndex = t.drawIndex → t'.userId = t.userId →
        0 < t'.payoutScadBase → t'.isUnpaid = true ∧ id' ∈ ids)
    {j : Job} (hj : j ∈ jobs (s.rows ids)) :
    s.Whole j ∧ s.users.get j.userId = some j.walletAddress ∧
      ∃ id ∈ j.ticketIds, ∃ t, s.tickets.get id = some t ∧ t.prizeTxSignature = none := by
  obtain ⟨r, hr, rfl⟩ := jobs_of_rows hj
  obtain ⟨hid, hticket, hunpaid, hwallet⟩ := mem_rows.mp hr
  -- the rows of the key are the winning tickets of the row's winner
  have hperm : (((s.rows ids).filter (·.key = r.key)).map fun q => (q.id, q.ticket)).Perm
      (s.won r.ticket.drawIndex r.ticket.userId) := by
    refine (List.perm_ext_iff_of_nodup ?_ ?_).mpr fun e => ?_
    · refine List.Nodup.of_map Prod.fst ?_
      rw [List.map_map]
      exact (nodup_rows hnodup).sublist (List.filter_sublist.map _)
    · exact List.Nodup.of_map _ (s.tickets.nodup.sublist (List.filter_sublist.map _))
    · rw [mem_won, List.mem_map]
      constructor
      · rintro ⟨q, hq, rfl⟩
        obtain ⟨hq, hkey⟩ := List.mem_filter.mp hq
        obtain ⟨-, ht, hu, hw⟩ := mem_rows.mp hq
        obtain ⟨hdraw, hsame⟩ := Prod.mk.inj (of_decide_eq_true hkey)
        have hpos := (Bool.and_eq_true_iff.mp hu).1
        exact ⟨ht, hdraw, hwallets _ _ _ hw (hsame ▸ hwallet), of_decide_eq_true hpos⟩
      · rintro ⟨ht, hdraw, huser, hpos⟩
        obtain ⟨hu, hmem⟩ := huncut r.id hid r.ticket hticket hunpaid e.1 e.2 ht hdraw huser hpos
        refine ⟨⟨e.1, e.2, r.walletAddress⟩, List.mem_filter.mpr ⟨?_, ?_⟩, rfl⟩
        · exact mem_rows.mpr ⟨hmem, ht, hu, huser ▸ hwallet⟩
        · exact decide_eq_true (by simp [Row.key, hdraw])
  have hweight := weight_perm (fun e => e.2.payoutScadBase) hperm
  rw [weight_map] at hweight
  refine ⟨⟨fun id => ?_, hweight.trans total_eq.symm⟩, hwallet, r.id, ?_, r.ticket, hticket, ?_⟩
  · have hmem := (hperm.map Prod.fst).mem_iff (a := id)
    rw [List.map_map] at hmem
    refine hmem.trans ⟨?_, ?_⟩
    · intro h
      obtain ⟨e, he, rfl⟩ := List.mem_map.mp h
      exact ⟨e.2, mem_won.mp he⟩
    · rintro ⟨t, ht⟩
      exact List.mem_map.mpr ⟨(id, t), mem_won.mpr ht, rfl⟩
  · exact List.mem_map_of_mem (List.mem_filter.mpr ⟨hr, decide_eq_true rfl⟩)
  · exact Option.isNone_iff_eq_none.mp (Bool.and_eq_true_iff.mp hunpaid).2

end Groups

/-! ## The invariant -/

/-- A group that is queued, waits for its answer, is on its way or has been paid. -/
def State.Live (s : State) (j : Job) : Prop :=
  (∃ q js, s.queues.get q = some js ∧ j ∈ js) ∨ (∃ i, s.calls.get i = some j) ∨
    (∃ i, s.sent.get i = some j) ∨ ∃ i, (i, j) ∈ s.payments

/-- A ticket of the group is not marked. -/
def State.Unmarked (s : State) (j : Job) : Prop :=
  ∃ id ∈ j.ticketIds, ∃ t, s.tickets.get id = some t ∧ t.prizeTxSignature = none

structure State.Sound (s : State) : Prop where
  wallets : ∀ u v w, s.users.get u = some w → s.users.get v = some w → u = v
  ticket : ∀ id t, s.tickets.get id = some t → id < s.drawn ∧ t.drawIndex < s.draws
  payment : ∀ i j, (i, j) ∈ s.payments → i < s.drawn
  call : ∀ i j, s.calls.get i = some j → i < s.drawn ∧
    ∀ j', s.sent.get i = some j' ∨ (i, j') ∈ s.payments → j' = j
  sent : ∀ i j, s.sent.get i = some j → i < s.drawn
  settled : ∀ j, s.Live j → j.drawIndex < s.draws
  whole : ∀ j, s.Live j → s.Whole j
  wallet : ∀ j, s.Live j → s.Unmarked j → s.users.get j.userId = some j.walletAddress
  agree : ∀ j j', s.Live j → s.Live j' → j.drawIndex = j'.drawIndex → j.userId = j'.userId →
    j.walletAddress = j'.walletAddress
  account : ∀ p ∈ s.payments, s.payouts.get (p.2.drawIndex, p.2.walletAddress) ≠ none
  done : ∀ id t i, s.tickets.get id = some t → t.prizeTxSignature = some i →
    s.calls.get i = none
  right : s.Right

theorem not_live_init (j : Job) : ¬ State.init.Live j := by
  simp [State.Live, State.init]

theorem sound_init : State.init.Sound where
  wallets := by simp [State.init]
  ticket := by simp [State.init]
  payment := by simp [State.init]
  call := by simp [State.init]
  sent := by simp [State.init]
  settled j hj := absurd hj (not_live_init j)
  whole j hj := absurd hj (not_live_init j)
  wallet j hj := absurd hj (not_live_init j)
  agree j _ hj := absurd hj (not_live_init j)
  account := by simp [State.init]
  done := by simp [State.init]
  right := ⟨by simp [State.init], by simp [State.init], by simp [State.init], by simp [State.init]⟩

section Sound

variable {s : State}

/-- If one of a winner's tickets is marked, all of the draw are. -/
theorem marked_together (hs : s.Sound) {id id' : TicketId} {t t' : Ticket}
    (ht : s.tickets.get id = some t) (ht' : s.tickets.get id' = some t')
    (hdraw : t'.drawIndex = t.drawIndex) (huser : t'.userId = t.userId)
    (hpos : 0 < t.payoutScadBase) (hunmarked : t.prizeTxSignature = none) :
    t'.prizeTxSignature = none := by
  cases hmark : t'.prizeTxSignature with
  | none => rfl
  | some i =>
    -- the payment that marked it included both, and has marked both
    obtain ⟨job, hpaid, hid'⟩ := hs.right.included id' t' i ht' hmark
    have hwhole := hs.whole job (.inr (.inr (.inr ⟨i, hpaid⟩)))
    obtain ⟨_, ht'', hdraw'', huser'', -⟩ := (hwhole.tickets id').mp hid'
    cases ht'.symm.trans ht''
    have hid : id ∈ job.ticketIds :=
      (hwhole.tickets id).mpr ⟨t, ht, hdraw.symm.trans hdraw'', huser.symm.trans huser'', hpos⟩
    have hother := hs.right.marked (i, job) hpaid (hs.done id' t' i ht' hmark) id hid t ht
    rw [hunmarked] at hother
    cases hother

/-- Two groups of one winner in one draw have the same tickets. -/
theorem unmarked_together {j j' : Job} (hj : s.Whole j) (hj' : s.Whole j')
    (hdraw : j.drawIndex = j'.drawIndex) (huser : j.userId = j'.userId) (h : s.Unmarked j) :
    s.Unmarked j' := by
  obtain ⟨id, hid, t, ht, hnone⟩ := h
  obtain ⟨t', ht', hdraw', huser', hpos⟩ := (hj.tickets id).mp hid
  exact ⟨id, (hj'.tickets id).mpr ⟨t', ht', hdraw'.trans hdraw, huser'.trans huser, hpos⟩,
    t, ht, hnone⟩

/-! ## Steps that keep the tickets -/

theorem sound_setWallet (hs : s.Sound) {s' : State} {userId : UserId} {walletAddress : Address}
    (hkeep : ∀ j, s.Live j → s.Unmarked j → j.userId ≠ userId)
    (h : s.setWallet userId walletAddress = some s') : s'.Sound := by
  unfold State.setWallet at h
  split at h
  · cases h
  · rename_i hnone
    cases h
    have hfree : ∀ u w, s.users.get u = some w → w ≠ walletAddress := by
      intro u w hu
      simpa using s.users.find_none.mp (Option.not_isSome_iff_eq_none.mp hnone) u w hu
    exact { hs with
      wallets := by
        intro u v w hu hv
        rw [Table.get_set] at hu hv
        split at hu
        · rename_i heq
          cases hu
          split at hv
          · rename_i heq'
            exact heq.trans heq'.symm
          · exact absurd rfl (hfree v _ hv)
        · split at hv
          · cases hv
            exact absurd rfl (hfree u _ hu)
          · exact hs.wallets u v w hu hv
      whole := fun j hj => ⟨(hs.whole j hj).tickets, (hs.whole j hj).amount⟩
      wallet := fun j hj hunmarked =>
        (s.users.get_set_ne (hkeep j hj hunmarked)).trans (hs.wallet j hj hunmarked)
      right := ⟨hs.right.once, hs.right.complete, hs.right.included, hs.right.marked⟩ }

/-- Groups are queued, asked for and answered. -/
theorem sound_groups (hs : s.Sound) {queues : Table Nat (List Job)} {calls sent : Table Nat Job}
    {drawn : Nat} (hdrawn : s.drawn ≤ drawn)
    (hqueues : ∀ q js, queues.get q = some js → ∀ j ∈ js, s.Live j)
    (hcalls : ∀ i j, calls.get i = some j → s.Live j ∧ i < drawn ∧
      ∀ j', sent.get i = some j' ∨ (i, j') ∈ s.payments → j' = j)
    (hsent : ∀ i j, sent.get i = some j → s.Live j ∧ i < drawn)
    (hsame : ∀ p ∈ s.payments, (calls.get p.1 = none ↔ s.calls.get p.1 = none)) :
    ({ s with queues := queues, calls := calls, sent := sent, drawn := drawn } : State).Sound := by
  have hlive : ∀ {j : Job}, ({ s with
      queues := queues, calls := calls, sent := sent, drawn := drawn } : State).Live j →
        s.Live j := by
    rintro j (⟨q, js, hq, hj⟩ | ⟨i, hi⟩ | ⟨i, hi⟩ | hpaid)
    · exact hqueues q js hq j hj
    · exact (hcalls i j hi).1
    · exact (hsent i j hi).1
    · exact .inr (.inr (.inr hpaid))
  exact {
    wallets := hs.wallets
    ticket := fun id t ht =>
      ⟨Nat.lt_of_lt_of_le (hs.ticket id t ht).1 hdrawn, (hs.ticket id t ht).2⟩
    payment := fun i j hp => Nat.lt_of_lt_of_le (hs.payment i j hp) hdrawn
    call := fun i j hi => (hcalls i j hi).2
    sent := fun i j hi => (hsent i j hi).2
    settled := fun j hj => hs.settled j (hlive hj)
    whole := fun j hj => ⟨(hs.whole j (hlive hj)).tickets, (hs.whole j (hlive hj)).amount⟩
    wallet := fun j hj => hs.wallet j (hlive hj)
    agree := fun j j' hj hj' => hs.agree j j' (hlive hj) (hlive hj')
    account := hs.account
    done := by
      intro id t i ht hi
      obtain ⟨_, hpaid, -⟩ := hs.right.included id t i ht hi
      exact (hsame _ hpaid).mpr (hs.done id t i ht hi)
    right := ⟨hs.right.once, hs.right.complete, hs.right.included,
      fun p hp hnone => hs.right.marked p hp ((hsame p hp).mp hnone)⟩ }

theorem sound_enqueue (hs : s.Sound) {js : List Job} (hjs : ∀ j ∈ js, s.Whole j ∧
    s.users.get j.userId = some j.walletAddress ∧ s.Unmarked j) : (s.enqueue js).Sound := by
  have hlive : ∀ {j : Job}, (s.enqueue js).Live j → s.Live j ∨ j ∈ js := by
    rintro j (⟨q, js', hq, hj⟩ | h)
    · exact s.queues.forall_set (P := fun _ l => ∀ j ∈ l, s.Live j ∨ j ∈ js)
        (fun i l hl j hj => .inl (.inl ⟨i, l, hl, hj⟩)) (fun j hj => .inr hj) q js' hq j hj
    · exact .inl (.inr h)
  have hwhole : ∀ {j : Job}, (s.enqueue js).Live j → s.Whole j := fun hj =>
    (hlive hj).elim (hs.whole _) fun hj => (hjs _ hj).1
  have hwallet : ∀ {j : Job}, (s.enqueue js).Live j → s.Unmarked j →
      s.users.get j.userId = some j.walletAddress := fun hj hunmarked =>
    (hlive hj).elim (hs.wallet _ · hunmarked) fun hj => (hjs _ hj).2.1
  have hagree : ∀ {j j' : Job}, (s.enqueue js).Live j → (s.enqueue js).Live j' →
      s.Unmarked j → j.drawIndex = j'.drawIndex → j.userId = j'.userId →
        j.walletAddress = j'.walletAddress := by
    intro j j' hj hj' hunmarked hdraw huser
    have hother := hwallet hj' (unmarked_together (hwhole hj) (hwhole hj') hdraw huser hunmarked)
    rw [← huser, hwallet hj hunmarked] at hother
    exact Option.some.inj hother
  exact {
    wallets := hs.wallets
    ticket := fun id t ht => ⟨Nat.lt_succ_of_lt (hs.ticket id t ht).1, (hs.ticket id t ht).2⟩
    payment := fun i j hp => Nat.lt_succ_of_lt (hs.payment i j hp)
    call := fun i j hi => ⟨Nat.lt_succ_of_lt (hs.call i j hi).1, (hs.call i j hi).2⟩
    sent := fun i j hi => Nat.lt_succ_of_lt (hs.sent i j hi)
    settled := by
      intro j hj
      rcases hlive hj with hold | hnew
      · exact hs.settled j hold
      · obtain ⟨hw, -, id, hid, -⟩ := hjs j hnew
        obtain ⟨t, ht, hdraw, -⟩ := (hw.tickets id).mp hid
        exact hdraw ▸ (hs.ticket id t ht).2
    whole := fun j hj => ⟨(hwhole hj).tickets, (hwhole hj).amount⟩
    wallet := fun j hj => hwallet hj
    agree := by
      intro j j' hj hj' hdraw huser
      rcases hlive hj with hold | hnew
      · rcases hlive hj' with hold' | hnew'
        · exact hs.agree j j' hold hold' hdraw huser
        · exact (hagree hj' hj (hjs j' hnew').2.2 hdraw.symm huser.symm).symm
      · exact hagree hj hj' (hjs j hnew).2.2 hdraw huser
    account := hs.account
    done := hs.done
    right := ⟨hs.right.once, hs.right.complete, hs.right.included, hs.right.marked⟩ }

theorem sound_sweep (hs : s.Sound) {s' : State} {limit : Nat} {ids : List TicketId}
    (hok : Regular s (.sweep limit ids)) (h : s.sweep limit ids = some s') : s'.Sound := by
  unfold State.sweep at h
  split at h
  · rename_i hreads
    cases h
    simp only [State.reads, Bool.and_eq_true, decide_eq_true_eq] at hreads
    refine sound_enqueue hs fun j hj => whole_jobs hs.wallets hreads.1.1.1 ?_ hj
    intro id hid t ht hunpaid id' t' ht' hdraw huser hpos
    obtain ⟨hwon, hnone⟩ := Bool.and_eq_true_iff.mp hunpaid
    have hunpaid' : t'.isUnpaid = true := by
      have hnone' := marked_together hs ht ht' hdraw huser (of_decide_eq_true hwon)
        (Option.isNone_iff_eq_none.mp hnone)
      simp [Ticket.isUnpaid, hpos, hnone']
    exact ⟨hunpaid', hok (id, t) (s.tickets.get_eq_some.mp ht) (id', t')
      (s.tickets.get_eq_some.mp ht') hid hunpaid' hdraw huser⟩
  · cases h

/-! ## Settles -/

/-- What the tickets of a new draw change. -/
structure Grown (d : Nat) (s s' : State) : Prop where
  frame : s' = { s with tickets := s'.tickets, drawn := s'.drawn }
  old : ∀ id t, s.tickets.get id = some t → s'.tickets.get id = some t
  new : ∀ (id : Nat) t, s'.tickets.get id = some t → s.tickets.get id = some t ∨
    s.drawn ≤ id ∧ id < s'.drawn ∧ t.drawIndex = d ∧ t.prizeTxSignature = none
  total : ∀ d' u, d' ≠ d → s'.total d' u = s.total d' u

theorem grown_insertTickets (hfresh : ∀ id t, s.tickets.get id = some t → id < s.drawn) (d : Nat)
    (results : List (UserId × Nat)) : Grown d s (s.insertTickets d results) ∧
      (s.insertTickets d results).drawn = s.drawn + results.length := by
  induction results using List.reverseRecOn with
  | nil => exact ⟨⟨rfl, fun _ _ => id, fun _ _ => .inl, fun _ _ _ => rfl⟩, rfl⟩
  | append_singleton results r ih =>
    obtain ⟨h, hdrawn⟩ := ih
    rw [State.insertTickets, List.foldl_append]
    change Grown d s ((s.insertTickets d results).insertTicket _) ∧
      (s.insertTickets d results).drawn + 1 = _
    generalize s.insertTickets d results = s' at h hdrawn ⊢
    have hlt : ∀ id t, s'.tickets.get id = some t → id < s'.drawn := by
      intro id t ht
      rcases h.new id t ht with hold | ⟨-, hid, -⟩
      · exact Nat.lt_of_lt_of_le (hfresh id t hold) (hdrawn ▸ Nat.le_add_right ..)
      · exact hid
    have hnone : s'.tickets.get s'.drawn = none := by
      cases hget : s'.tickets.get s'.drawn with
      | none => rfl
      | some t' => exact absurd (hlt _ t' hget) (Nat.lt_irrefl _)
    refine ⟨⟨?_, ?_, ?_, ?_⟩, ?_⟩
    · rw [h.frame]
      rfl
    · intro id t ht
      have hold := h.old id t ht
      exact (s'.tickets.get_set_ne (Nat.ne_of_lt (hlt id t hold))).trans hold
    · refine s'.tickets.forall_set (fun id t ht => ?_) (.inr ⟨?_, Nat.lt_succ_self _, rfl, rfl⟩)
      · refine (h.new id t ht).imp_right ?_
        rintro ⟨hle, hid, hkept⟩
        exact ⟨hle, Nat.lt_succ_of_lt hid, hkept⟩
      · exact hdrawn ▸ Nat.le_add_right ..
    · intro d' u hd'
      have hsum := s'.tickets.sum_set (k := s'.drawn) (a := ⟨d, r.1, r.2, none⟩)
        (g := fun t => if t.drawIndex = d' ∧ t.userId = u then t.payoutScadBase else 0)
      simp only [hnone, Ne.symm hd', false_and, if_false, Option.map_none, Option.getD_none,
        Nat.add_zero] at hsum
      exact hsum.trans (h.total d' u hd')
    · rw [List.length_append, ← Nat.add_assoc, ← hdrawn]
      rfl

/-- What is right stays so when a draw is settled: its tickets are new. -/
theorem sound_grown (hs : s.Sound) {s' : State} (h : Grown s.draws s s')
    (hdrawn : s.drawn ≤ s'.drawn) : ({ s' with draws := s.draws + 1 } : State).Sound := by
  have hfresh : ∀ id t, s'.tickets.get id = some t → id < s'.drawn := by
    intro id t ht
    rcases h.new id t ht with hold | ⟨-, hid, -⟩
    · exact Nat.lt_of_lt_of_le (hs.ticket id t hold).1 hdrawn
    · exact hid
  have hback : ∀ {id t}, s'.tickets.get id = some t → t.drawIndex ≠ s.draws →
      s.tickets.get id = some t := fun ht hne =>
    (h.new _ _ ht).resolve_right fun hnew => hne hnew.2.2.1
  obtain ⟨tickets, drawn, rfl⟩ : ∃ tickets drawn,
      s' = { s with tickets := tickets, drawn := drawn } := ⟨_, _, h.frame⟩
  have hwhole : ∀ {j : Job}, s.Live j →
      ({ s with tickets := tickets, drawn := drawn, draws := s.draws + 1 } : State).Whole j := by
    intro j hj
    have hdraw := Nat.ne_of_lt (hs.settled j hj)
    refine ⟨fun id => ((hs.whole j hj).tickets id).trans ?_,
      (hs.whole j hj).amount.trans (h.total _ _ hdraw).symm⟩
    constructor
    · rintro ⟨t, ht, hkept⟩
      exact ⟨t, h.old id t ht, hkept⟩
    · rintro ⟨t, ht, hd, hkept⟩
      exact ⟨t, hback ht (hd ▸ hdraw), hd, hkept⟩
  exact {
    wallets := hs.wallets
    ticket := by
      intro id t ht
      refine ⟨hfresh id t ht, ?_⟩
      rcases h.new id t ht with hold | ⟨-, -, hdraw, -⟩
      · exact Nat.lt_succ_of_lt (hs.ticket id t hold).2
      · exact hdraw ▸ Nat.lt_succ_self _
    payment := fun i j hp => Nat.lt_of_lt_of_le (hs.payment i j hp) hdrawn
    call := fun i j hi => ⟨Nat.lt_of_lt_of_le (hs.call i j hi).1 hdrawn, (hs.call i j hi).2⟩
    sent := fun i j hi => Nat.lt_of_lt_of_le (hs.sent i j hi) hdrawn
    settled := fun j hj => Nat.lt_succ_of_lt (hs.settled j hj)
    whole := fun j hj => hwhole hj
    wallet := by
      rintro j hj ⟨id, hid, t, ht, hnone⟩
      obtain ⟨t', ht', -⟩ := ((hs.whole j hj).tickets id).mp hid
      cases ht.symm.trans (h.old id t' ht')
      exact hs.wallet j hj ⟨id, hid, t, ht', hnone⟩
    agree := hs.agree
    account := hs.account
    done := by
      intro id t i ht hi
      rcases h.new id t ht with hold | ⟨-, -, -, hnone⟩
      · exact hs.done id t i hold hi
      · rw [hnone] at hi
        cases hi
    right := {
      once := hs.right.once
      complete := fun p hp => (hwhole (.inr (.inr (.inr ⟨p.1, hp⟩)))).amount
      included := by
        intro id t i ht hi
        rcases h.new id t ht with hold | ⟨-, -, -, hnone⟩
        · exact hs.right.included id t i hold hi
        · rw [hnone] at hi
          cases hi
      marked := by
        intro p hp hcall id hid t ht
        obtain ⟨t', ht', -⟩ :=
          ((hs.whole p.2 (.inr (.inr (.inr ⟨p.1, hp⟩)))).tickets id).mp hid
        cases ht.symm.trans (h.old id t' ht')
        exact hs.right.marked p hp hcall id hid t ht' } }

theorem sound_settle (hs : s.Sound) {s' : State} {results : List (UserId × Nat)}
    {deferred : Bool} (h : s.settle results deferred = some s') : s'.Sound := by
  unfold State.settle at h
  split at h
  · cases h
    obtain ⟨hgrown, hdrawn⟩ :=
      grown_insertTickets (fun id t ht => (hs.ticket id t ht).1) s.draws results
    have hsettled := sound_grown hs hgrown (hdrawn ▸ Nat.le_add_right ..)
    cases deferred with
    | true => exact hsettled
    | false =>
      -- every ticket of the draw is among those that are read
      have hnew : ∀ id t, (s.insertTickets s.draws results).tickets.get id = some t →
          t.drawIndex = s.draws → t.prizeTxSignature = none ∧
            id ∈ (List.range results.length).map (s.drawn + ·) := by
        intro id t ht hdraw
        rcases hgrown.new id t ht with hold | ⟨hle, hid, -, hnone⟩
        · exact absurd hdraw (Nat.ne_of_lt (hs.ticket id t hold).2)
        · refine ⟨hnone, List.mem_map.mpr ⟨id - s.drawn, List.mem_range.mpr ?_, ?_⟩⟩
          · omega
          · exact Nat.add_sub_cancel' hle
      have hdraw : ∀ id t, (s.insertTickets s.draws results).tickets.get id = some t →
          id ∈ (List.range results.length).map (s.drawn + ·) → t.drawIndex = s.draws := by
        intro id t ht hid
        obtain ⟨n, -, rfl⟩ := List.mem_map.mp hid
        rcases hgrown.new _ t ht with hold | ⟨-, -, hdraw, -⟩
        · exact absurd (hs.ticket _ t hold).1 (Nat.not_lt.mpr (Nat.le_add_right ..))
        · exact hdraw
      refine sound_enqueue hsettled fun j hj => whole_jobs hsettled.wallets ?_ ?_ hj
      · exact List.nodup_range.map fun a b hab => Nat.add_left_cancel hab
      · intro id hid t ht _ id' t' ht' hsame _ hpos
        obtain ⟨hnone, hmem⟩ := hnew id' t' ht' (hsame.trans (hdraw id t ht hid))
        exact ⟨by simp [Ticket.isUnpaid, hpos, hnone], hmem⟩
  · cases h

/-! ## Payments -/

theorem sound_pay (hs : s.Sound) {s' : State} {queue : Nat} {skipped : Bool}
    (h : s.pay queue skipped = some s') : s'.Sound := by
  unfold State.pay at h
  split at h
  · rename_i job rest hqueue
    cases h
    have hjobs : ∀ j ∈ job :: rest, s.Live j := fun j hj => .inl ⟨queue, _, hqueue, hj⟩
    have hqueues : ∀ q js, (s.queues.set queue rest).get q = some js → ∀ j ∈ js, s.Live j :=
      s.queues.forall_set (fun q js hq j hj => .inl ⟨q, js, hq, hj⟩)
        fun j hj => hjobs j (List.mem_cons_of_mem _ hj)
    have hcalls : ∀ i j, s.calls.get i = some j → s.Live j ∧ i < s.drawn ∧
        ∀ j', s.sent.get i = some j' ∨ (i, j') ∈ s.payments → j' = j := fun i j hi =>
      ⟨.inr (.inl ⟨i, hi⟩), hs.call i j hi⟩
    have hsent : ∀ i j, s.sent.get i = some j → s.Live j ∧ i < s.drawn := fun i j hi =>
      ⟨.inr (.inr (.inl ⟨i, hi⟩)), hs.sent i j hi⟩
    cases skipped with
    | true => exact sound_groups hs (Nat.le_refl _) hqueues hcalls hsent fun _ _ => Iff.rfl
    | false =>
      have hjob := hjobs job (List.mem_cons_self ..)
      refine sound_groups hs (Nat.le_succ _) hqueues ?_ ?_ ?_
      · refine s.calls.forall_set ?_ ⟨hjob, Nat.lt_succ_self _, ?_⟩
        · intro i j hi
          obtain ⟨hlive, hlt, hsame⟩ := hcalls i j hi
          refine ⟨hlive, Nat.lt_succ_of_lt hlt, ?_⟩
          rw [Table.get_set_ne _ (Nat.ne_of_lt hlt)]
          exact hsame
        · rintro j' (hj' | hpaid)
          · rw [Table.get_set_self] at hj'
            exact (Option.some.inj hj').symm
          · exact absurd (hs.payment _ j' hpaid) (Nat.lt_irrefl _)
      · exact s.sent.forall_set
          (fun i j hi => ⟨(hsent i j hi).1, Nat.lt_succ_of_lt (hsent i j hi).2⟩)
          ⟨hjob, Nat.lt_succ_self _⟩
      · intro p hp
        exact iff_of_eq (congrArg (· = none)
          (s.calls.get_set_ne (Nat.ne_of_lt (hs.payment p.1 p.2 hp))))
  · cases h

/-- The account lets one payment of a draw to a wallet through. -/
theorem sound_paid (hs : s.Sound) {call : Nat} {job : Job} (hcall : s.calls.get call = some job)
    (hpays : s.pays job = true) : ({ s with
      payouts := s.payouts.set (job.drawIndex, job.walletAddress) job.amountScadBase
      payments := (call, job) :: s.payments } : State).Sound := by
  have hjob : s.Live job := .inr (.inl ⟨call, hcall⟩)
  have hlive : ∀ {j : Job}, ({ s with
      payouts := s.payouts.set (job.drawIndex, job.walletAddress) job.amountScadBase
      payments := (call, job) :: s.payments } : State).Live j → s.Live j := by
    rintro j (hq | hi | hi | ⟨i, hpaid⟩)
    · exact .inl hq
    · exact .inr (.inl hi)
    · exact .inr (.inr (.inl hi))
    · rcases List.mem_cons.mp hpaid with heq | hold
      · exact (Prod.mk.inj heq).2 ▸ hjob
      · exact .inr (.inr (.inr ⟨i, hold⟩))
  have hfree := Option.isNone_iff_eq_none.mp (Bool.and_eq_true_iff.mp hpays).1
  exact {
    wallets := hs.wallets
    ticket := hs.ticket
    payment := by
      intro i j hp
      rcases List.mem_cons.mp hp with heq | hold
      · exact (Prod.mk.inj heq).1 ▸ (hs.call call job hcall).1
      · exact hs.payment i j hold
    call := by
      refine fun i j hi => ⟨(hs.call i j hi).1, ?_⟩
      rintro j' (hj' | hpaid)
      · exact (hs.call i j hi).2 j' (.inl hj')
      · rcases List.mem_cons.mp hpaid with heq | hold
        · obtain ⟨rfl, rfl⟩ := Prod.mk.inj heq
          exact Option.some.inj (hcall.symm.trans hi)
        · exact (hs.call i j hi).2 j' (.inr hold)
    sent := hs.sent
    settled := fun j hj => hs.settled j (hlive hj)
    whole := fun j hj => ⟨(hs.whole j (hlive hj)).tickets, (hs.whole j (hlive hj)).amount⟩
    wallet := fun j hj => hs.wallet j (hlive hj)
    agree := fun j j' hj hj' => hs.agree j j' (hlive hj) (hlive hj')
    account := by
      intro p hp
      rw [Table.get_set]
      split
      · exact Option.some_ne_none _
      · rename_i hne
        rcases List.mem_cons.mp hp with rfl | hold
        · exact absurd rfl hne
        · exact hs.account p hold
    done := hs.done
    right := {
      once := by
        refine List.nodup_cons.mpr ⟨fun hmem => ?_, hs.right.once⟩
        obtain ⟨p, hp, heq⟩ := List.mem_map.mp hmem
        obtain ⟨hdraw, huser⟩ := Prod.mk.inj heq
        have hwallet := hs.agree p.2 job (.inr (.inr (.inr ⟨p.1, hp⟩))) hjob hdraw huser
        have haccount := hs.account p hp
        rw [hdraw, hwallet] at haccount
        exact haccount hfree
      complete := by
        intro p hp
        rcases List.mem_cons.mp hp with rfl | hold
        · exact (hs.whole job hjob).amount
        · exact hs.right.complete p hold
      included := by
        intro id t i ht hi
        obtain ⟨j, hpaid, hid⟩ := hs.right.included id t i ht hi
        exact ⟨j, List.mem_cons_of_mem _ hpaid, hid⟩
      marked := by
        intro p hp hnone
        rcases List.mem_cons.mp hp with rfl | hold
        · cases hcall.symm.trans hnone
        · exact hs.right.marked p hold hnone } }

theorem sound_land (hs : s.Sound) {s' : State} {call : Nat} {accepted : Bool}
    (hok : Regular s (.land call accepted)) (h : s.land call accepted = some s') : s'.Sound := by
  unfold State.land at h
  split at h
  · rename_i job hsent
    have herased := sound_groups hs (Nat.le_refl _) (fun q js hq j hj => .inl ⟨q, js, hq, hj⟩)
      (fun i j hi => ⟨.inr (.inl ⟨i, hi⟩), (hs.call i j hi).1, fun j' hj' =>
        (hs.call i j hi).2 j' (hj'.imp_left s.sent.get_of_erase)⟩)
      (s.sent.forall_erase (k := call) fun i j hi => ⟨.inr (.inr (.inl ⟨i, hi⟩)), hs.sent i j hi⟩)
      (fun _ _ => Iff.rfl)
    cases h
    dsimp only
    split
    · rename_i hpays
      obtain ⟨haccepted, hpays⟩ := Bool.and_eq_true_iff.mp hpays
      obtain ⟨j, hj⟩ := Option.isSome_iff_exists.mp (hok haccepted)
      obtain rfl := (hs.call call j hj).2 job (.inl hsent)
      exact sound_paid herased hj hpays
    · exact herased
  · cases h

theorem get_mark {call : Nat} {ids : List TicketId} {id : TicketId} :
    (s.mark call ids).tickets.get id = (s.tickets.get id).map fun t =>
      if id ∈ ids then { t with prizeTxSignature := some call } else t :=
  s.tickets.get_map _

theorem total_mark {call : Nat} {ids : List TicketId} (d : Nat) (u : UserId) :
    (s.mark call ids).total d u = s.total d u := by
  unfold State.total State.mark
  dsimp only
  rw [Table.sum_map]
  intro id t
  split
  · rfl
  · rfl

theorem whole_mark {call : Nat} {ids : List TicketId} {j : Job} (h : s.Whole j) :
    (s.mark call ids).Whole j := by
  refine ⟨fun id => (h.tickets id).trans ?_, h.amount.trans (total_mark ..).symm⟩
  rw [get_mark]
  cases s.tickets.get id with
  | none => simp
  | some t =>
    by_cases hid : id ∈ ids
    · simp [hid]
    · simp [hid]

/-- Its tickets are marked by the payment that landed. -/
theorem sound_marked (hs : s.Sound) {call : Nat} {job : Job} (hcall : s.calls.get call = some job)
    (hpaid : (call, job) ∈ s.payments) :
    (({ s with calls := s.calls.erase call } : State).mark call job.ticketIds).Sound := by
  have hlive : ∀ {j : Job},
      (({ s with calls := s.calls.erase call } : State).mark call job.ticketIds).Live j →
        s.Live j := by
    rintro j (hq | ⟨i, hi⟩ | hi)
    · exact .inl hq
    · exact .inr (.inl ⟨i, s.calls.get_of_erase hi⟩)
    · exact .inr (.inr hi)
  have hnot : ∀ {i}, s.calls.get i = none → (s.calls.erase call).get i = none := by
    intro i hi
    by_cases h : i = call
    · rw [h, Table.get_erase_self]
    · rw [Table.get_erase_ne _ h, hi]
  have hwhole := hs.whole job (.inr (.inl ⟨call, hcall⟩))
  exact {
    wallets := hs.wallets
    ticket := by
      intro id t' ht'
      rw [get_mark] at ht'
      obtain ⟨t, ht, rfl⟩ := Option.map_eq_some_iff.mp ht'
      refine ⟨(hs.ticket id t ht).1, ?_⟩
      split
      · exact (hs.ticket id t ht).2
      · exact (hs.ticket id t ht).2
    payment := hs.payment
    call := fun i j hi => hs.call i j (s.calls.get_of_erase hi)
    sent := hs.sent
    settled := fun j hj => hs.settled j (hlive hj)
    whole := fun j hj => whole_mark ⟨(hs.whole j (hlive hj)).tickets, (hs.whole j (hlive hj)).amount⟩
    wallet := by
      rintro j hj ⟨id, hid, t', ht', hnone⟩
      rw [get_mark] at ht'
      obtain ⟨t, ht, rfl⟩ := Option.map_eq_some_iff.mp ht'
      split at hnone
      · cases hnone
      · exact hs.wallet j (hlive hj) ⟨id, hid, t, ht, hnone⟩
    agree := fun j j' hj hj' => hs.agree j j' (hlive hj) (hlive hj')
    account := hs.account
    done := by
      intro id t' i ht' hi
      rw [get_mark] at ht'
      obtain ⟨t, ht, rfl⟩ := Option.map_eq_some_iff.mp ht'
      split at hi
      · cases hi
        exact s.calls.get_erase_self
      · exact hnot (hs.done id t i ht hi)
    right := {
      once := hs.right.once
      complete := fun p hp => (hs.right.complete p hp).trans (total_mark ..).symm
      included := by
        intro id t' i ht' hi
        rw [get_mark] at ht'
        obtain ⟨t, ht, rfl⟩ := Option.map_eq_some_iff.mp ht'
        split at hi
        · rename_i hid
          cases hi
          exact ⟨job, hpaid, hid⟩
        · exact hs.right.included id t i ht hi
      marked := by
        intro p hp hnone id hid t' ht'
        rw [get_mark] at ht'
        obtain ⟨t, ht, rfl⟩ := Option.map_eq_some_iff.mp ht'
        obtain ⟨_, ht₁, hdraw₁, huser₁, -⟩ :=
          ((hs.whole p.2 (.inr (.inr (.inr ⟨p.1, hp⟩)))).tickets id).mp hid
        cases ht.symm.trans ht₁
        by_cases hin : id ∈ job.ticketIds
        · -- the two payments are of the same draw and winner
          obtain ⟨_, ht₂, hdraw₂, huser₂, -⟩ := (hwhole.tickets id).mp hin
          cases ht.symm.trans ht₂
          have hkey : (p.2.drawIndex, p.2.userId) = (job.drawIndex, job.userId) := by
            rw [← hdraw₁, ← huser₁, hdraw₂, huser₂]
          obtain rfl := List.inj_on_of_nodup_map hs.right.once hp hpaid hkey
          simp [hin]
        · have hne : p.1 ≠ call := by
            rintro rfl
            exact hin ((hs.call p.1 job hcall).2 p.2 (.inr hp) ▸ hid)
          simp only [hin, if_false]
          exact hs.right.marked p hp ((s.calls.get_erase_ne hne).symm.trans hnone) id hid t ht } }

theorem sound_finish (hs : s.Sound) {s' : State} {call : Nat} {marked : Bool}
    (hok : Regular s (.finish call marked)) (h : s.finish call marked = some s') : s'.Sound := by
  unfold State.finish at h
  split at h
  · rename_i job hcall
    cases marked with
    | true =>
      simp only [if_true] at h
      split at h
      · rename_i hpaid
        cases h
        exact sound_marked hs hcall hpaid
      · cases h
    | false =>
      cases h
      exact sound_groups hs (Nat.le_refl _) (fun q js hq j hj => .inl ⟨q, js, hq, hj⟩)
        (s.calls.forall_erase fun i j hi => ⟨.inr (.inl ⟨i, hi⟩), hs.call i j hi⟩)
        (fun i j hi => ⟨.inr (.inr (.inl ⟨i, hi⟩)), hs.sent i j hi⟩)
        fun p hp => iff_of_eq (congrArg (· = none) (s.calls.get_erase_ne (hok p hp)))
  · cases h

theorem sound_kill (hs : s.Sound) (hok : Regular s .kill) :
    ({ s with queues := .empty, calls := .empty } : State).Sound :=
  sound_groups hs (Nat.le_refl _) (by simp) (by simp)
    (fun i j hi => ⟨.inr (.inr (.inl ⟨i, hi⟩)), hs.sent i j hi⟩)
    fun p hp => iff_of_true rfl (hok p hp)

/-! ## Runs -/

theorem sound_step (s : State) (e : Event) (s' : State) (hok : Regular s e) (hs : s.Sound)
    (h : step s e = some s') : s'.Sound := by
  cases e with
  | createUser userId walletAddress =>
    simp only [step] at h
    split at h
    · cases h
    · rename_i hnew
      refine sound_setWallet hs ?_ h
      rintro j hj hunmarked rfl
      rw [hs.wallet j hj hunmarked] at hnew
      exact hnew rfl
  | setPrimaryWallet userId walletAddress =>
    simp only [step] at h
    split at h
    · refine sound_setWallet hs ?_ h
      rintro j hj ⟨id, hid, t, ht, hnone⟩ huser
      obtain ⟨_, ht', -, huser', hpos⟩ := ((hs.whole j hj).tickets id).mp hid
      cases ht.symm.trans ht'
      have hpaid := hok (id, t) (s.tickets.get_eq_some.mp ht) (huser'.trans huser)
      simp [Ticket.isUnpaid, hpos, hnone] at hpaid
    · cases h
  | settle => exact sound_settle hs h
  | sweep => exact sound_sweep hs hok h
  | pay => exact sound_pay hs h
  | land => exact sound_land hs hok h
  | finish => exact sound_finish hs hok h
  | kill =>
    cases h
    exact sound_kill hs hok

end Sound

/-- Winners are paid completely and once all along a regular run. -/
theorem prizes_right {es : List Event} (hok : Along step Regular State.init es) :
    Throughout step State.init es State.Right :=
  (throughout_of_along sound_step sound_init hok).mono fun _ hs => hs.right

namespace Sample

/-- Two winners; the engine and a sweep pay the same groups, and the program lets one of
two payments through. -/
def paid : List Event := [.createUser 1 100, .createUser 2 200,
  .settle [(1, 10), (2, 5), (1, 20)] false, .sweep 3 [0, 1, 2], .pay 3 false, .pay 4 false,
  .land 5 true, .land 6 true, .finish 5 true, .finish 6 false, .setPrimaryWallet 1 101,
  .pay 4 false, .land 7 true, .finish 7 true, .pay 3 false, .land 8 true, .kill]

theorem prizes_right_paid : Throughout step State.init paid State.Right ∧
    ∃ s, run step State.init paid = some s ∧
      s.payments = [(7, ⟨0, 200, 2, 5, [1]⟩), (5, ⟨0, 100, 1, 30, [0, 2]⟩)] :=
  ⟨prizes_right (by decide +kernel), by decide +kernel⟩

/-- A draw with three winning tickets of user 1. The treasury was short; a sweep reads two
of them and pays them, and the next one pays the third. -/
def swept : List Event := [.createUser 1 100, .settle [(1, 10), (1, 20), (1, 30)] true,
  .sweep 2 [0, 1], .pay 3 false, .land 4 true, .finish 4 true, .sweep 2 [2], .pay 5 false,
  .land 6 true, .finish 6 false]

/-- The winner has got 30 of 60, and the program pays no more. -/
theorem sweep_pays_part : ∃ s p, run step State.init swept = some s ∧ s.payments = [p] ∧
    p.2.userId = 1 ∧ p.2.amountScadBase = 30 ∧ s.total 0 1 = 60 ∧
    s.payouts.get (0, 100) = some 30 ∧ ¬ s.Right := by
  obtain ⟨s, hs, hpayments, htotal, hpayout⟩ : ∃ s, run step State.init swept = some s ∧
      s.payments = [(4, ⟨0, 100, 1, 30, [0, 1]⟩)] ∧ s.total 0 1 = 60 ∧
        s.payouts.get (0, 100) = some 30 := by decide +kernel
  refine ⟨s, _, hs, hpayments, rfl, rfl, htotal, hpayout, ?_⟩
  intro hright
  have hcomplete := hright.complete (4, ⟨0, 100, 1, 30, [0, 1]⟩) (hpayments ▸ List.mem_cons_self ..)
  rw [htotal] at hcomplete
  cases hcomplete

end Sample

end Scadium.Games.Lottery.Prizes
