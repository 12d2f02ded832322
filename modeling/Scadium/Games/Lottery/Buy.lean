/-
Scadium.Games.Lottery.Buy — `LotteryService.buyTickets`
(`games/lottery/lottery.service.ts`): the transaction that debits the batch
and creates its tickets on the condition that the draw row is still open.

`BuyCall` is a call that has passed the checks; it carries what they
established about the picks.
-/
import Scadium.Games.Lottery.Settle
import Scadium.Prisma.Idempotency

namespace Scadium.Games.Lottery

open Scadium.Lib Scadium.Prisma Scadium.Shared

/-! ## Before the transaction -/

/-- `validateDigits` -/
def ValidDigits (digits : List Nat) : Prop :=
  digits.length = LOTTERY.DIGITS ∧ ∀ d ∈ digits, d ≤ 9

instance (digits : List Nat) : Decidable (ValidDigits digits) := inferInstanceAs (Decidable (_ ∧ _))

structure BuyCall where
  userId : UserId
  picks : List (List Nat)
  drawId : RoundId
  key : Option String
  perTicketScad : Nat
  perTicketLamports : Nat
  inRange : 1 ≤ picks.length ∧ picks.length ≤ LOTTERY.MAX_TICKETS_PER_PURCHASE
  valid : ∀ digits ∈ picks, ValidDigits digits

/-! ## The transaction -/

/-- The ids the new rows get. -/
structure BuyEnv where
  randomUUID : Nat → EntryId

inductive BuyOutcome where
  | replayed (response : String)
  | bought (response : String)
  deriving DecidableEq

/-- `data: picks.map(…)`, with the column defaults. -/
def BuyCall.ticket (call : BuyCall) (env : BuyEnv) (pi : List Nat × Nat) : LotteryTicket where
  id := env.randomUUID pi.2
  drawId := call.drawId
  userId := call.userId
  digits := pi.1
  costLamports := call.perTicketLamports
  costScadBase := call.perTicketScad
  payoutLamports := 0
  payoutScadBase := 0
  matchLen := 0
  bracket := none
  won := false

def BuyCall.tickets (call : BuyCall) (env : BuyEnv) : List LotteryTicket :=
  call.picks.zipIdx.map (call.ticket env)

/-- `lotteryTicket.createManyAndReturn`; the id column is unique. -/
def createManyTickets (tickets : List LotteryTicket) (db : Db) :
    Except TxError (List LotteryTicket × Db) :=
  if ((tickets ++ db.lotteryTickets).map (·.id)).Nodup then
    .ok (tickets, { db with lotteryTickets := tickets ++ db.lotteryTickets })
  else .error p2002

def jsonArray (items : List String) : String := "[" ++ String.intercalate "," items ++ "]"

def serializeTicket (t : LotteryTicket) : String :=
  "\x7b\"id\":\"" ++ toString t.id ++ "\",\"drawId\":\"" ++ toString t.drawId ++ "\",\"digits\":"
    ++ jsonArray (t.digits.map toString) ++ "\x7d"

def serializePurchase (tickets : List LotteryTicket) (totalScadBase totalLamports : Nat) :
    String :=
  "\x7b\"count\":" ++ toString tickets.length ++ ",\"totalScadBase\":\"" ++ toString totalScadBase
    ++ "\",\"totalLamports\":\"" ++ toString totalLamports ++ "\",\"tickets\":"
    ++ jsonArray (tickets.map serializeTicket) ++ "\x7d"

def BuyCall.debitScad (call : BuyCall) : Nat := call.perTicketScad * call.picks.length

def BuyCall.debitLamports (call : BuyCall) : Nat := call.perTicketLamports * call.picks.length

def BuyCall.debit (call : BuyCall) : DeltaMeta :=
  { reason := "lottery_ticket", refType := "LotteryDraw", refId := some call.drawId }

/-- #215 — the guarded no-op write on the draw row. -/
def assertDrawStillOpen (drawId : RoundId) : DbTx Unit Unit := do
  let count ← Tx.statement (·.updateManyLotteryDraw drawId (·.status == .open)
    fun d => { d with status := .open })
  if count = 0 then throw (.badRequest "Draw just closed — your ticket was not bought")

/-- The transaction of a call whose key is not a replay. -/
def placeTickets (deps : Deps) (call : BuyCall) (env : BuyEnv) : DbTx Unit BuyOutcome := do
  assertPooledEntry deps call.userId .lottery call.drawId
  let _ ← applyBalanceDelta call.userId (-(call.debitLamports : Int)) call.debit
  let tickets ← Tx.statement (createManyTickets (call.tickets env))
  assertDrawStillOpen call.drawId
  let response := serializePurchase tickets call.debitScad call.debitLamports
  storeIdempotency call.userId "lottery_buy" call.key response
  pure (.bought response)

def buyTx (deps : Deps) (call : BuyCall) (env : BuyEnv) : DbTx Unit BuyOutcome := do
  let replay ← claimIdempotency call.userId "lottery_buy" call.key
  match replay with
  | some response => pure (.replayed response)
  | none => placeTickets deps call env

/-! ## What a committed call did -/

variable {deps : Deps} {call : BuyCall} {env : BuyEnv}
variable {s t : TxState Unit Db TxError}

theorem assertDrawStillOpen_ok {drawId : RoundId} {u : Unit}
    (h : (assertDrawStillOpen drawId).run s = .ok u t) :
    ∃ row, s.db.lotteryDraws drawId = some row ∧ row.status = .open ∧ t.db = s.db := by
  obtain ⟨_, _, hupdate, h⟩ := Tx.bind_eq_ok.mp h
  obtain ⟨hf, -⟩ := Tx.statement_ok hupdate
  simp only [Db.updateManyLotteryDraw, Except.ok.injEq, Prod.mk.injEq] at hf
  obtain ⟨rfl, hdb⟩ := hf
  split at h
  case isTrue => exact absurd h Tx.throw_eq_ok.mp
  case isFalse hcount =>
    obtain ⟨-, rfl⟩ := Tx.pure_eq_ok.mp h
    obtain ⟨row, hrow, hopen, htable⟩ := claim_ok hcount
    have hstatus : row.status = .open := by simpa using hopen
    refine ⟨row, hrow, hstatus, ?_⟩
    rw [← hdb, htable]
    have hsame : ({ row with status := .open } : LotteryDraw) = row := by rw [← hstatus]
    rw [hsame, ← hrow, Function.update_eq_self]

/-- The posting of a batch. -/
def BuyCall.posting (call : BuyCall) : Posting :=
  ⟨call.userId, .jeton, -(call.debitLamports : Int), "lottery_ticket", "LotteryDraw",
    some call.drawId⟩

/-- A committed purchase: the draw row was open and stays as it was, the
tickets are added, and the batch is debited. -/
structure Bought (call : BuyCall) (env : BuyEnv) (db db' : Db) : Prop where
  isOpen : ∃ row, db.lotteryDraws call.drawId = some row ∧ row.status = .open
  draws : db'.lotteryDraws = db.lotteryDraws
  tickets : db'.lotteryTickets = call.tickets env ++ db.lotteryTickets
  posts : Posts [call.posting] db db'

theorem createManyTickets_ok {tickets rows : List LotteryTicket} {db db' : Db}
    (h : createManyTickets tickets db = .ok (rows, db')) :
    db' = { db with lotteryTickets := tickets ++ db.lotteryTickets } := by
  unfold createManyTickets at h
  split at h
  · cases h
    rfl
  · cases h

theorem placeTickets_ok {outcome : BuyOutcome}
    (h : (placeTickets deps call env).run s = .ok outcome t) : Bought call env s.db t.db := by
  obtain ⟨_, s₁, hpooled, h⟩ := Tx.bind_eq_ok.mp h
  obtain ⟨_, s₂, hdebit, h⟩ := Tx.bind_eq_ok.mp h
  obtain ⟨_, s₃, hcreate, h⟩ := Tx.bind_eq_ok.mp h
  obtain ⟨_, s₄, hguard, h⟩ := Tx.bind_eq_ok.mp h
  obtain ⟨_, s₅, hstore, h⟩ := Tx.bind_eq_ok.mp h
  obtain ⟨-, rfl⟩ := Tx.pure_eq_ok.mp h
  have hread : s₁.db = s.db := assertPooledEntry_keeps id _ _ _ _ _ _ _ hpooled
  have hinserted := createManyTickets_ok (Tx.statement_ok hcreate).1
  obtain ⟨row, hrow, hopen, hsame⟩ := assertDrawStillOpen_ok hguard
  -- the debit and the key leave the lottery tables alone
  have hdebitKeeps : (s₂.db.lotteryDraws, s₂.db.lotteryTickets) =
      (s₁.db.lotteryDraws, s₁.db.lotteryTickets) :=
    applyBalanceDelta_keeps (p := fun db => (db.lotteryDraws, db.lotteryTickets))
      (fun _ _ _ => rfl) _ _ _ _ _ _ hdebit
  have hstoreKeeps : (s₅.db.lotteryDraws, s₅.db.lotteryTickets) =
      (s₄.db.lotteryDraws, s₄.db.lotteryTickets) :=
    storeIdempotency_keeps (p := fun db => (db.lotteryDraws, db.lotteryTickets))
      (fun _ _ => rfl) _ _ _ _ _ _ _ hstore
  simp only [Prod.mk.injEq] at hdebitKeeps hstoreKeeps
  have hdraws : s₃.db.lotteryDraws = s.db.lotteryDraws := by
    rw [hinserted, hdebitKeeps.1, hread]
  have hinsert : Quiet s₂.db s₃.db := by
    rw [hinserted]
    exact Posts.of_eq rfl rfl
  have hguarded : Quiet s₃.db s₄.db := by
    rw [hsame]
    exact Posts.refl _
  have hstored : Quiet s₄.db s₅.db :=
    Posts.of_keeps (storeIdempotency_keeps (fun _ _ => rfl) _ _ _ _) hstore
  refine ⟨⟨row, hdraws ▸ hrow, hopen⟩, ?_, ?_, ?_⟩
  · rw [hstoreKeeps.1, hsame, hdraws]
  · rw [hstoreKeeps.2, hsame, hinserted, hdebitKeeps.2, hread]
  · have hposts := applyBalanceDelta_posts hdebit
    rw [hread] at hposts
    exact (hposts.trans_quiet hinsert).trans_quiet hguarded |>.trans_quiet hstored

/-- A committed call either replays, and changes nothing, or buys. -/
theorem buyTx_ok {outcome : BuyOutcome} (h : (buyTx deps call env).run s = .ok outcome t) :
    t.db = s.db ∨ Bought call env s.db t.db := by
  obtain ⟨replay, s₁, hclaim, h⟩ := Tx.bind_eq_ok.mp h
  cases replay with
  | some =>
    obtain ⟨-, rfl⟩ := Tx.pure_eq_ok.mp h
    exact .inl (claimIdempotency_replay hclaim)
  | none =>
    have hbought := placeTickets_ok h
    have hkeeps : (s₁.db.lotteryDraws, s₁.db.lotteryTickets) =
        (s.db.lotteryDraws, s.db.lotteryTickets) :=
      claimIdempotency_keeps (p := fun db => (db.lotteryDraws, db.lotteryTickets))
        (fun _ _ => rfl) _ _ _ _ _ _ hclaim
    have hquiet : Quiet s.db s₁.db :=
      Posts.of_keeps (claimIdempotency_keeps (fun _ _ => rfl) _ _ _) hclaim
    simp only [Prod.mk.injEq] at hkeeps
    exact .inr
      { isOpen := hkeeps.1 ▸ hbought.isOpen
        draws := hbought.draws.trans hkeeps.1
        tickets := hkeeps.2 ▸ hbought.tickets
        posts := hquiet.quiet_trans hbought.posts }

/-- A call leaves everything but the accounts, its key and the two lottery
tables alone. -/
theorem buyTx_keeps {γ : Type} {p : Db → γ} (hp : OffPlayers p)
    (hkeys : ∀ (db : Db) keys, p { db with idempotencyKeys := keys } = p db)
    (htickets : ∀ (db : Db) tickets, p { db with lotteryTickets := tickets } = p db) :
    Tx.Keeps p (buyTx deps call env) := by
  refine .bind (claimIdempotency_keeps hkeys _ _ _) fun replay => ?_
  cases replay with
  | some => exact .pure _
  | none =>
    refine .bind (assertPooledEntry_keeps p _ _ _ _) fun _ =>
      .bind (applyBalanceDelta_keeps hp.movement _ _ _) fun _ => .bind (.statement ?_) fun _ =>
        .bind ?_ fun _ => .bind (storeIdempotency_keeps hkeys _ _ _ _) fun _ => .pure _
    · intro db rows db' h
      rw [createManyTickets_ok h, htickets]
    · intro s u t h
      obtain ⟨_, -, -, hsame⟩ := assertDrawStillOpen_ok h
      rw [hsame]

end Scadium.Games.Lottery
