/-
Scadium.Custody.Withdrawal — withdrawals
(`apps/api/src/custody/withdrawal.service.ts`), as a system of calls that run
side by side with the chain.

A signature stands for the message it signs: `memo` is the row in its memo,
`expiry` the last block height its blockhash is good for. The chain takes in
what was broadcast to it; what the RPC node answers is the environment's
choice, within what the chain allows. The keys of repeated requests are left
to the environment too, and so is which rows are of today.
-/
import Scadium.Custody.Transfers

namespace Scadium.Custody.Withdrawal

open Scadium.Lib Scadium.Prisma Scadium.Prisma.Committed

/-! ## The chain -/

/-- What the network knows of our transactions. `landed` are those in a block
that stays, and whether with an error. -/
structure Chain where
  height : Nat
  finalized : Nat
  final : finalized ≤ height
  sent : List Signature
  landed : Table Signature Bool

structure SignatureState where
  found : Bool
  failed : Bool
  settled : Bool
  slot : Option Nat

structure SignedTransfer where
  signature : Signature
  lastValidBlockHeight : Nat

/-- What the environment answers in a step. -/
structure Env where
  minWithdrawLamports : Nat
  maxWithdrawLamports : Nat
  dailyWithdrawLamports : Nat
  feeReserveLamports : Nat
  withdrawMaxAttempts : Nat
  /-- `maintenance.isPaused()` -/
  paused : Bool
  /-- The withdrawal of an earlier request with this key. -/
  replay : Option TransferId
  /-- `createdAt ≥ startOfUtcDay()` -/
  today : TransferId → Bool
  newId : TransferId
  /-- `chain.balance(treasury)` -/
  balance : Nat
  signed : SignedTransfer
  /-- The network got the transaction, whatever `broadcast` reported. -/
  delivered : Bool
  finalizedBlockHeight : Nat
  signatureState : SignatureState
  /-- The drive window is still open. -/
  goOn : Bool

structure World where
  tables : CustodyDb
  chain : Chain

/-! ## Transactions -/

def inFlight (row : CustodyTransfer) : Prop := row.status = .pending ∨ row.status = .sent

instance (row : CustodyTransfer) : Decidable (inFlight row) := by
  unfold inFlight
  infer_instance

/-- `custodyTransfer.updateMany({ where: { id, … }, data })`, with its count. -/
def updateMany (s : CustodyDb) (id : TransferId) (guard : CustodyTransfer → Prop)
    [DecidablePred guard] (data : CustodyTransfer → CustodyTransfer) : CustodyDb × Nat :=
  match s.transfers.get id with
  | some row =>
      if guard row then ({ s with transfers := s.transfers.set id (data row) }, 1) else (s, 0)
  | none => (s, 0)

/-- The rows of an account's withdrawals. -/
def withdrawals (s : CustodyDb) (userId : UserId) : List (TransferId × CustodyTransfer) :=
  s.transfers.entries.filter fun p => p.2.kind = .withdraw ∧ p.2.userId = some userId

/-- `_sum.amountLamports` of today's. -/
def withdrawnToday (s : CustodyDb) (env : Env) (userId : UserId) : Nat :=
  (((withdrawals s userId).filter fun p =>
    (inFlight p.2 ∨ p.2.status = .confirmed) ∧ env.today p.1).map fun p => p.2.amountLamports).sum

/-- The row of a withdrawal. -/
def withdrawRow (userId : UserId) (wallet : Address) (amount : Nat) : CustodyTransfer where
  kind := .withdraw
  status := .pending
  userId := some userId
  wallet := wallet
  amountLamports := amount
  txSignature := none
  slot := none
  lastValidBlockHeight := none
  attempts := 0
  heldReason := none
  error := none

/-- Debit and queue. -/
def queue (s : CustodyDb) (env : Env) (userId : UserId) (wallet : Address) (amount : Nat) :
    Committed CustodyDb := do
  ensure (s.transfers.get env.newId = none) (.prisma "P2002" none "Unique constraint failed")
  let db ← moveBalance s.db userId (-amount)
    ⟨"custody_withdraw", "CustodyTransfer", some env.newId, .jeton, none⟩
  pure { s with
    db := db
    transfers := s.transfers.set env.newId (withdrawRow userId wallet amount) }

/-- The transaction of a request. -/
def requestTx (s : CustodyDb) (env : Env) (userId : UserId) (amount : Nat)
    (wallet : Option Address) : Committed CustodyDb := do
  let user ← orThrow (s.db.users userId) (.prisma "P2025" none "No User found")
  ensure user.fundedAt.isSome
    (.forbidden "Only deposited funds can be withdrawn — deposit first")
  let wallet := wallet.getD user.walletAddress
  ensure (wallet = user.walletAddress ∨ s.linked.get wallet = some userId)
    (.badRequest "Withdrawals go only to a wallet linked to your account")
  ensure ((withdrawals s userId).all fun p => ¬inFlight p.2)
    (.conflict "A withdrawal is already in progress")
  ensure (withdrawnToday s env userId + amount ≤ env.dailyWithdrawLamports)
    (.forbidden "Daily withdrawal limit reached")
  queue s env userId wallet amount

/-- The movement of a refund. -/
def giveBack (s : CustodyDb) (id : TransferId) (row : CustodyTransfer) : Committed CustodyDb := do
  let userId ← orThrow row.userId (.prisma "P2025" none "No User found")
  let db ← moveBalance s.db userId row.amountLamports
    ⟨"custody_withdraw_refund", "CustodyTransfer", some id, .jeton, none⟩
  pure { s with db := db }

/-- Give the stake back — only ever after the last signature is provably dead. -/
def refund (s : CustodyDb) (id : TransferId) (row : CustodyTransfer) (why : String) :
    Committed CustodyDb :=
  let (s', count) := updateMany s id
    (fun r => r.status = row.status ∧ r.txSignature = row.txSignature)
    fun r => { r with status := .failed, error := some why }
  if count = 1 then giveBack s' id row else .ok s'

/-! ## Calls -/

/-- Who steps a withdrawal: a drive of it, or a pass over the unfinished ones. -/
inductive Driver where
  | drive
  | resumeAll (rest : List TransferId)

/-- What a call does next. -/
inductive Call where
  | request (userId : UserId) (amount : Nat) (wallet : Option Address)
  | requestTx (userId : UserId) (amount : Nat) (wallet : Option Address)
  | resumeAll
  /-- `step(id)`: read the row -/
  | step (id : TransferId) (driver : Driver)
  /-- `send(row)`, by its awaits -/
  | isPaused (id : TransferId) (row : CustodyTransfer) (driver : Driver)
  | balance (id : TransferId) (row : CustodyTransfer) (driver : Driver)
  | signTransfer (id : TransferId) (row : CustodyTransfer) (driver : Driver)
  | store (id : TransferId) (row : CustodyTransfer) (signed : SignedTransfer) (driver : Driver)
  | broadcast (id : TransferId) (signature : Signature) (driver : Driver)
  /-- `check(row)`, by its awaits -/
  | finalizedBlockHeight (id : TransferId) (row : CustodyTransfer) (driver : Driver)
  | signatureState (id : TransferId) (row : CustodyTransfer) (finalized : Nat) (driver : Driver)
  | confirm (id : TransferId) (row : CustodyTransfer) (slot : Option Nat) (driver : Driver)
  | resign (id : TransferId) (row : CustodyTransfer) (why : String) (driver : Driver)
  | refund (id : TransferId) (row : CustodyTransfer) (why : String) (driver : Driver)
  /-- The row as it is now, which the step returns. -/
  | reread (id : TransferId) (driver : Driver)
  | done

/-- The next withdrawal of a pass. -/
def nextOpen : List TransferId → Call
  | [] => .done
  | id :: rest => .step id (.resumeAll rest)

/-- After a step that returned `row`. -/
def Driver.returned (env : Env) (id : TransferId) (row : CustodyTransfer) : Driver → Call
  | .drive => if inFlight row ∧ env.goOn then .step id .drive else .done
  | .resumeAll rest => nextOpen rest

/-- After a step that threw. -/
def Driver.threw : Driver → Call
  | .drive => .done
  | .resumeAll rest => nextOpen rest

/-- `row.txSignature!` -/
def signatureOf (row : CustodyTransfer) : Signature := row.txSignature.getD ""

def Call.ofSend (env : Env) (id : TransferId) (row : CustodyTransfer) (driver : Driver) : Call :=
  if env.withdrawMaxAttempts ≤ row.attempts then .refund id row "no signature landed" driver
  else .isPaused id row driver

/-- `step` on the row it read. -/
def Call.ofRow (env : Env) (id : TransferId) (row : CustodyTransfer) (driver : Driver) : Call :=
  if row.kind ≠ .withdraw then driver.returned env id row
  else if row.status = .pending then .ofSend env id row driver
  else if row.status = .sent then .finalizedBlockHeight id row driver
  else driver.returned env id row

/-- The signature is dead: it landed with an error, or expired unseen. -/
def Call.ofDead (env : Env) (id : TransferId) (row : CustodyTransfer) (driver : Driver) : Call :=
  let why :=
    if env.signatureState.found then "failed on chain: " ++ signatureOf row
    else "expired unseen: " ++ signatureOf row
  if env.withdrawMaxAttempts ≤ row.attempts then .refund id row why driver
  else .resign id row why driver

/-- `check` once it knows the finalized height and the signature's state. -/
def Call.ofState (margin : Nat) (env : Env) (id : TransferId) (row : CustodyTransfer)
    (finalized : Nat) (driver : Driver) : Call :=
  if env.signatureState.found then
    if env.signatureState.settled = false then driver.returned env id row
    else if env.signatureState.failed = false then
      .confirm id row env.signatureState.slot driver
    else .ofDead env id row driver
  else if finalized ≤ row.lastValidBlockHeight.getD 0 + margin then driver.returned env id row
  else .ofDead env id row driver

def Chain.give (chain : Chain) (delivered : Bool) (signature : Signature) : Chain :=
  if delivered then { chain with sent := signature :: chain.sent } else chain

/-- The tables after a transaction; one that throws writes nothing. -/
def committed (s : CustodyDb) (r : Committed CustodyDb) (ok error : Call) : CustodyDb × Call :=
  match r with
  | .ok s' => (s', ok)
  | .error _ => (s, error)

/-- The write of a signature, which is unique. -/
def storeSignature (s : CustodyDb) (id : TransferId) (row : CustodyTransfer)
    (signed : SignedTransfer) (driver : Driver) : CustodyDb × Call :=
  if s.transfers.entries.any fun p =>
      p.1 ≠ id ∧ p.2.txSignature = some signed.signature then (s, driver.threw)
  else
    let (s', count) := updateMany s id
      (fun r => r.status = .pending ∧ r.attempts = row.attempts)
      fun r => { r with
        status := .sent
        txSignature := some signed.signature
        lastValidBlockHeight := some signed.lastValidBlockHeight
        attempts := row.attempts + 1
        error := none }
    (s', if count = 0 then .reread id driver else .broadcast id signed.signature driver)

/-- One step of a call: the tables it leaves and what it does next. -/
def Call.onTables (margin : Nat) (s : CustodyDb) (env : Env) : Call → CustodyDb × Call
  | .request userId amount wallet =>
      if amount < env.minWithdrawLamports ∨ env.maxWithdrawLamports < amount ∨ env.paused then
        (s, .done)
      else (s, .requestTx userId amount wallet)
  | .requestTx userId amount wallet =>
      match env.replay with
      | some id => (s, .step id .drive)
      | none =>
          committed s (Withdrawal.requestTx s env userId amount wallet)
            (.step env.newId .drive) .done
  | .resumeAll =>
      (s, nextOpen ((s.transfers.entries.filter fun p =>
        p.2.kind = .withdraw ∧ inFlight p.2).map Prod.fst))
  | .step id driver =>
      match s.transfers.get id with
      | some row => (s, .ofRow env id row driver)
      | none => (s, driver.threw)
  | .isPaused id row driver =>
      (s, if env.paused then driver.returned env id row else .balance id row driver)
  | .balance id row driver =>
      (s, if env.balance < row.amountLamports + env.feeReserveLamports then
        driver.returned env id row else .signTransfer id row driver)
  | .signTransfer id row driver => (s, .store id row env.signed driver)
  | .store id row signed driver => storeSignature s id row signed driver
  | .broadcast id _ driver => (s, .reread id driver)
  | .finalizedBlockHeight id row driver =>
      (s, .signatureState id row env.finalizedBlockHeight driver)
  | .signatureState id row finalized driver => (s, .ofState margin env id row finalized driver)
  | .confirm id row slot driver =>
      ((updateMany s id (fun r => r.status = .sent ∧ r.txSignature = some (signatureOf row))
        fun r => { r with status := .confirmed, slot := slot }).1, .reread id driver)
  | .resign id row why driver =>
      ((updateMany s id (fun r => r.status = .sent ∧ r.txSignature = some (signatureOf row))
        fun r => { r with
          status := .pending
          txSignature := none
          lastValidBlockHeight := none
          error := some why }).1, .reread id driver)
  | .refund id row why driver =>
      committed s (Withdrawal.refund s id row why) (.reread id driver) driver.threw
  | .reread id driver =>
      match s.transfers.get id with
      | some row => (s, driver.returned env id row)
      | none => (s, driver.threw)
  | .done => (s, .done)

/-- What a step tells the network. -/
def Call.onChain (chain : Chain) (env : Env) : Call → Chain
  | .broadcast _ signature _ => chain.give env.delivered signature
  | _ => chain

/-- What is left of a call when its await throws. -/
def Call.threw : Call → Call
  | .step _ driver | .isPaused _ _ driver | .balance _ _ driver | .signTransfer _ _ driver
  | .store _ _ _ driver | .finalizedBlockHeight _ _ driver | .signatureState _ _ _ driver
  | .confirm _ _ _ driver | .resign _ _ _ driver | .refund _ _ _ driver | .reread _ driver =>
      driver.threw
  | .broadcast id _ driver => .reread id driver
  | .request .. | .requestTx .. | .resumeAll | .done => .done

/-! ## The system -/

structure System where
  world : World
  calls : Table CallId Call

/-- How a call begins. -/
inductive Entry where
  | request (userId : UserId) (amount : Nat) (wallet : Option Address)
  | drive (id : TransferId)
  | resumeAll

def Entry.call : Entry → Call
  | .request userId amount wallet => .request userId amount wallet
  | .drive id => .step id .drive
  | .resumeAll => .resumeAll

inductive Act where
  | start (call : CallId) (entry : Entry)
  | run (call : CallId) (env : Env)
  | throws (call : CallId)
  | kill (call : CallId)
  /-- A transaction goes into a block that stays. -/
  | land (signature : Signature) (failed : Bool)
  | advance (height finalized : Nat)
  /-- Wallets are linked, unlinked or made primary. -/
  | relink (primary linked : Table Address UserId)
  /-- Other parts of the system move balances. -/
  | other (db : Db)
  /-- The deposits write their own rows. -/
  | deposit (id : TransferId) (row : CustodyTransfer)

/-- The ledger rows of refunds. -/
def refundRows (db : Db) : List BalanceLedger :=
  db.ledger.filter fun r => r.reason = "custody_withdraw_refund"

/-- A deposit's row may be written. -/
def mayWrite (s : CustodyDb) (id : TransferId) (row : CustodyTransfer) : Bool :=
  row.kind = .deposit && (s.transfers.get id).all fun old => old.kind = .deposit

section Step

variable (memo : Signature → TransferId) (expiry : Signature → Nat) (margin : Nat)

/-- What the chain allows the RPC node to answer. -/
def Call.answered (chain : Chain) (env : Env) : Call → Bool
  | .signTransfer id _ _ =>
      memo env.signed.signature = id &&
        env.signed.lastValidBlockHeight = expiry env.signed.signature
  | .finalizedBlockHeight _ _ _ => env.finalizedBlockHeight ≤ chain.finalized
  | .signatureState _ row _ _ =>
      !(env.signatureState.found && env.signatureState.settled) ||
        chain.landed.get (signatureOf row) = some env.signatureState.failed
  | _ => true

def step (s : System) : Act → Option System
  | .start call entry =>
      match s.calls.get call with
      | none => some { s with calls := s.calls.set call entry.call }
      | some _ => none
  | .run call env =>
      match s.calls.get call with
      | some c =>
          if c.answered memo expiry s.world.chain env then
            let r := c.onTables margin s.world.tables env
            some ⟨⟨r.1, c.onChain s.world.chain env⟩, s.calls.set call r.2⟩
          else none
      | none => none
  | .throws call =>
      match s.calls.get call with
      | some c => some { s with calls := s.calls.set call c.threw }
      | none => none
  | .kill call => some { s with calls := s.calls.erase call }
  | .land signature failed =>
      let chain := s.world.chain
      if signature ∈ chain.sent ∧ chain.landed.get signature = none then
        some { s with world.chain.landed := chain.landed.set signature failed }
      else none
  | .advance height finalized =>
      let chain := s.world.chain
      if h : chain.height ≤ height ∧ chain.finalized ≤ finalized ∧ finalized ≤ height then
        some { s with world.chain := ⟨height, finalized, h.2.2, chain.sent, chain.landed⟩ }
      else none
  | .relink primary linked =>
      some { s with
        world.tables := { s.world.tables with primary := primary, linked := linked } }
  | .other db =>
      if refundRows db = refundRows s.world.tables.db then
        some { s with world.tables.db := db }
      else none
  | .deposit id row =>
      if mayWrite s.world.tables id row then
        some { s with world.tables.transfers := s.world.tables.transfers.set id row }
      else none

/-- A status query of a signature whose expiry, plus the margin, is final sees
it if it landed. -/
def Call.seesLanded (chain : Chain) (env : Env) : Call → Bool
  | .signatureState _ row _ _ =>
      !(expiry (signatureOf row) + margin < chain.finalized) || env.signatureState.found ||
        (chain.landed.get (signatureOf row)).isNone
  | _ => true

/-- A signature lands only up to its `lastValidBlockHeight`, and a late status
query sees it. -/
def Assumed (s : System) : Act → Prop
  | .land signature _ => s.world.chain.height ≤ expiry signature
  | .run call env =>
      (s.calls.get call).all (fun c => c.seesLanded expiry margin s.world.chain env) = true
  | _ => True

instance (s : System) (act : Act) : Decidable (Assumed expiry margin s act) := by
  cases act <;> unfold Assumed <;> infer_instance

end Step

/-- Before the first withdrawal. -/
def System.initial (db : Db) (primary linked : Table Address UserId) : System :=
  ⟨⟨⟨db, primary, linked, .empty, none⟩, ⟨0, 0, le_rfl, [], .empty⟩⟩, .empty⟩

end Scadium.Custody.Withdrawal
