/-
Scadium.Custody.Transfers — the rows of custody and the chain they are about
(`apps/api/prisma/schema.prisma`, `apps/api/src/custody/custody-chain.ts`), and
deposits (`apps/api/src/custody/deposit.service.ts`), as a system of calls that
run side by side.

A transaction is told by its signature; what it did to the treasury is read
off the balances before and after it, as the source reads it.

A call is what `confirm`, `scan` or `retryHeld` has still to do; each step is
one read, one write or one transaction, and a call may be killed between any
two. What belongs to other parts of the system is the environment's choice:
what the RPC node shows, the settings, the deposit checks of responsible
gambling, whether play-money stakes are open, and how wallets change hands.
What the conversion of an account does to commissions and free tickets is
left out.
-/
import Scadium.Lib.Table
import Scadium.Prisma.Committed
import Scadium.Lib.Runs

namespace Scadium.Custody

open Scadium.Lib Scadium.Prisma

/-- A wallet address. -/
abbrev Address := String
abbrev Signature := String
abbrev TransferId := Nat

inductive CustodyKind where
  | deposit | withdraw
  deriving DecidableEq

inductive CustodyStatus where
  | held | credited | pending | sent | confirmed | failed
  deriving DecidableEq

inductive CustodyHoldReason where
  | unattributed | ambiguous_sender | below_minimum | paused | deposit_limit | age_unverified
  | open_play_positions
  deriving DecidableEq

structure CustodyTransfer where
  kind : CustodyKind
  status : CustodyStatus
  userId : Option UserId
  wallet : Address
  amountLamports : Nat
  txSignature : Option Signature
  slot : Option Nat
  lastValidBlockHeight : Option Nat
  attempts : Nat
  heldReason : Option CustodyHoldReason
  error : Option String
  deriving DecidableEq

/-! ## The chain -/

/-- A transaction that landed; its first key pays the fee. -/
structure ChainTx where
  slot : Nat
  err : Bool
  keys : List Address
  numRequiredSignatures : Nat
  preBalances : List Nat
  postBalances : List Nat
  signed : 0 < numRequiredSignatures

/-- What one transaction did to the treasury. -/
inductive TreasuryTx where
  | missing | failed | outbound | unrelated
  | inbound (slot amount : Nat) (signers : List Address)
  deriving DecidableEq

def ChainTx.signers (tx : ChainTx) : List Address := tx.keys.take tx.numRequiredSignatures

/-- How much the balance of an address grew. -/
def ChainTx.delta (tx : ChainTx) (address : Address) : Int :=
  match tx.keys.idxOf? address with
  | some i => (tx.postBalances.getD i 0 : Int) - tx.preBalances.getD i 0
  | none => 0

/-- `Web3CustodyChain.treasuryTx`, on a transaction that is there. -/
def ChainTx.classify (tx : ChainTx) (treasury : Address) : TreasuryTx :=
  if tx.err then .failed
  else if treasury ∈ tx.signers then .outbound
  else if tx.delta treasury ≤ 0 then .unrelated
  else .inbound tx.slot (tx.delta treasury).toNat tx.signers

variable {tx : ChainTx} {treasury : Address} {slot amount : Nat} {signers : List Address}

/-- What an inbound transaction brought. -/
theorem ChainTx.classify_inbound (h : tx.classify treasury = .inbound slot amount signers) :
    tx.err = false ∧ signers = tx.signers ∧ (amount : Int) = tx.delta treasury ∧ 0 < amount := by
  unfold classify at h
  split at h
  · cases h
  · split at h
    · cases h
    · split at h
      · cases h
      case isFalse herr _ hpos =>
        cases h
        refine ⟨by simpa using herr, rfl, ?_, ?_⟩
        · omega
        · omega

/-- Somebody signed it. -/
theorem ChainTx.signers_ne_nil (h : tx.classify treasury = .inbound slot amount signers) :
    signers ≠ [] := by
  obtain ⟨-, rfl, hamount, _⟩ := tx.classify_inbound h
  have hkeys : tx.keys ≠ [] := by
    intro hnil
    simp [delta, hnil] at hamount
    omega
  have hsigned := tx.signed
  simp only [signers, ne_eq, List.take_eq_nil_iff, not_or]
  exact ⟨by omega, hkeys⟩

/-! # Deposits -/

open Scadium.Prisma.Committed

/-- The tables of custody. `primary` is the unique column `walletAddress` of
the users, `linked` the table of linked wallets. -/
structure CustodyDb where
  db : Db
  primary : Table Address UserId
  linked : Table Address UserId
  transfers : Table TransferId CustodyTransfer
  cursor : Option (Signature × Nat)

/-- What the environment answers in a step. -/
structure Env where
  /-- The transaction asked for is visible at the commitment. -/
  visible : Bool
  /-- `signaturesSince` -/
  listed : List (Signature × Nat)
  /-- the id of a new row -/
  newId : TransferId
  minDepositLamports : Nat
  /-- `rg.depositBlock` -/
  blocked : Option CustodyHoldReason
  /-- `openPlayPositions(…).length > 0` -/
  openPlay : Bool
  now : Time

/-! ## Owners -/

/-- The wallet belongs to the account. -/
def CustodyDb.Owns (s : CustodyDb) (userId : UserId) (wallet : Address) : Prop :=
  s.primary.get wallet = some userId ∨ s.linked.get wallet = some userId

/-- The rows of a wallet column that belong to `wallets`. -/
def findOwned (t : Table Address UserId) (wallets : List Address) : List (UserId × Address) :=
  wallets.filterMap fun w => (t.get w).map fun u => (u, w)

/-- `owners.set(u, w)` -/
def setOwners (m : List (UserId × Address)) : List (UserId × Address) → List (UserId × Address)
  | [] => m
  | p :: ps => setOwners (insertWith (fun _ => p.2) p.1 m) ps

/-- `if (!owners.has(u)) owners.set(u, w)` -/
def addOwners (m : List (UserId × Address)) : List (UserId × Address) → List (UserId × Address)
  | [] => m
  | p :: ps => addOwners (insertWith (fun old => old.getD p.2) p.1 m) ps

/-- Both reads in one transaction. -/
def CustodyDb.owners (s : CustodyDb) (wallets : List Address) : List (UserId × Address) :=
  addOwners (setOwners [] (findOwned s.primary wallets)) (findOwned s.linked wallets)

/-! ## Credit -/

/-- `hold(heldReason, userId)` -/
def CustodyDb.hold (s : CustodyDb) (id : TransferId) (row : CustodyTransfer)
    (heldReason : CustodyHoldReason) (userId : Option UserId) : CustodyDb :=
  { s with transfers :=
      s.transfers.set id { row with heldReason := some heldReason, userId := userId } }

def setFunded (db : Db) (userId : UserId) (now : Time) : Db :=
  let user := (db.users userId).map fun user => { user with fundedAt := some now }
  { db with users := Function.update db.users userId user }

/-- The play balance goes. -/
def forfeit (db : Db) (userId : UserId) (playBalance : Int) (id : TransferId) : Committed Db :=
  if 0 < playBalance then
    moveBalance db userId (-playBalance)
      ⟨"custody_conversion", "CustodyTransfer", some id, .jeton, none⟩
  else .ok db

/-- First deposit: the account becomes real money. -/
def convert (db : Db) (userId : UserId) (playBalance : Int) (id : TransferId) (now : Time) :
    Committed Db := do
  let db ← forfeit db userId playBalance id
  pure (setFunded db userId now)

/-- The movement and the row, in the same transaction. -/
def CustodyDb.pay (s : CustodyDb) (db : Db) (id : TransferId) (row : CustodyTransfer)
    (userId : UserId) : Committed CustodyDb := do
  let db ← moveBalance db userId row.amountLamports
    ⟨"custody_deposit", "CustodyTransfer", some id, .jeton, none⟩
  pure { s with
    db := db
    transfers := s.transfers.set id
      { row with status := .credited, userId := some userId, heldReason := none } }

/-- The account of a row: its own, or the one that owns the wallet now. -/
def CustodyDb.attribute (s : CustodyDb) (row : CustodyTransfer) : Option UserId :=
  match row.userId with
  | some userId => some userId
  | none =>
      match s.owners [row.wallet] with
      | [(userId, _)] => some userId
      | _ => none

/-- A row that passed the checks. -/
def CustodyDb.creditTo (s : CustodyDb) (env : Env) (id : TransferId) (row : CustodyTransfer)
    (userId : UserId) : Committed CustodyDb := do
  let user ← orThrow (s.db.users userId) (.prisma "P2025" none "No User found")
  if user.fundedAt.isSome then s.pay s.db id row userId
  else if env.openPlay then .ok (s.hold id row .open_play_positions (some userId))
  else do
    let db ← convert s.db userId (user.balance .jeton) id env.now
    s.pay db id row userId

def CustodyDb.creditHeld (s : CustodyDb) (env : Env) (id : TransferId) (row : CustodyTransfer) :
    Committed CustodyDb :=
  match s.attribute row with
  | none => .ok (s.hold id row .unattributed none)
  | some userId =>
      if row.amountLamports < env.minDepositLamports then
        .ok (s.hold id row .below_minimum (some userId))
      else
        match env.blocked with
        | some reason => .ok (s.hold id row reason (some userId))
        | none => s.creditTo env id row userId

/-- Credit a held deposit, or re-hold it with the current reason. -/
def CustodyDb.credit (s : CustodyDb) (env : Env) (id : TransferId) : Committed CustodyDb := do
  let row ← orThrow (s.transfers.get id) (.prisma "P2025" none "No CustodyTransfer found")
  -- Credited already, or signed by several accounts (resolved by hand only).
  if row.status ≠ .held ∨ row.heldReason = some .ambiguous_sender then .ok s
  else s.creditHeld env id row

/-- The tables after the transaction; one that throws writes nothing. -/
def CustodyDb.afterCredit (s : CustodyDb) (env : Env) (id : TransferId) : CustodyDb :=
  match s.credit env id with
  | .ok s' => s'
  | .error _ => s

/-! ## Rows -/

def CustodyDb.findBySignature (s : CustodyDb) (signature : Signature) :
    Option (TransferId × CustodyTransfer) :=
  s.transfers.entries.find? fun p => p.2.txSignature = some signature

/-- The transfer to be recorded, as the chain told it. -/
structure Inbound where
  slot : Nat
  amount : Nat
  signers : List Address

/-- The row of a deposit. -/
def depositRow (signature : Signature) (tx : Inbound) (owners : List (UserId × Address)) :
    CustodyTransfer :=
  let owner := match owners with
    | [p] => some p
    | _ => none
  { kind := .deposit
    status := .held
    userId := owner.map Prod.fst
    wallet := match owner with
      | some p => p.2
      | none => tx.signers.headD ""
    amountLamports := tx.amount
    txSignature := some signature
    slot := some tx.slot
    lastValidBlockHeight := none
    attempts := 0
    heldReason :=
      if owner.isSome then none
      else if 1 < owners.length then some .ambiguous_sender else some .unattributed
    error := none }

/-! ## Calls -/

/-- Who called `record`. -/
inductive Caller where
  | confirm
  | scan (slot : Nat) (rest : List (Signature × Nat))

/-- What a call does next. -/
inductive Call where
  /-- `confirm(signature)`: look the signature up -/
  | confirm (signature : Signature)
  | confirmFetch (signature : Signature)
  /-- `record(signature, tx)`, by its statements -/
  | readPrimary (signature : Signature) (tx : Inbound) (caller : Caller)
  | readLinked (signature : Signature) (tx : Inbound) (primary : List (UserId × Address))
      (caller : Caller)
  | create (signature : Signature) (tx : Inbound) (owners : List (UserId × Address))
      (caller : Caller)
  | findConflict (signature : Signature) (caller : Caller)
  /-- `credit(id)` of a confirm -/
  | credit (id : TransferId)
  /-- `scanOnce()`: read the cursor -/
  | scan
  | scanList (since : Option Signature)
  | scanNext (rest : List (Signature × Nat))
  | scanFetch (signature : Signature) (slot : Nat) (rest : List (Signature × Nat))
  | scanSave (signature : Signature) (slot : Nat) (rest : List (Signature × Nat))
  /-- `retryHeld()` -/
  | retryHeld
  | retry (ids : List TransferId)
  | done

def HOLD_RETRY_BATCH : Nat := 100

/-- The held deposits, oldest first. -/
def CustodyDb.findHeld (s : CustodyDb) : List TransferId :=
  ((s.transfers.entries.filter fun p => p.2.kind = .deposit ∧ p.2.status = .held).map
    Prod.fst).take HOLD_RETRY_BATCH

/-- A confirm that has its row. -/
def confirmRow (id : TransferId) (row : CustodyTransfer) : Call :=
  if row.status = .held then .credit id else .done

/-- After `record` returned a row. -/
def recorded (signature : Signature) (id : TransferId) (row : CustodyTransfer) : Caller → Call
  | .confirm => confirmRow id row
  | .scan slot rest => .scanSave signature slot rest

/-- After `record` returned null, or a confirm is refused. -/
def notRecorded (signature : Signature) : Caller → Call
  | .confirm => .done
  | .scan slot rest => .scanSave signature slot rest

section Step

variable (chain : Signature → Option ChainTx) (treasury : Address)

/-- `chain.treasuryTx(signature, treasury)` -/
def treasuryTx (env : Env) (signature : Signature) : TreasuryTx :=
  match chain signature with
  | some tx => if env.visible then tx.classify treasury else .missing
  | none => .missing

/-- One step of a call. -/
def Call.step (s : CustodyDb) (env : Env) : Call → CustodyDb × Call
  | .confirm signature =>
      match s.findBySignature signature with
      | some (id, row) => (s, if row.kind = .deposit then confirmRow id row else .done)
      | none => (s, .confirmFetch signature)
  | .confirmFetch signature =>
      match treasuryTx chain treasury env signature with
      | .inbound slot amount signers =>
          (s, .readPrimary signature ⟨slot, amount, signers⟩ .confirm)
      | _ => (s, .done)
  | .readPrimary signature tx caller =>
      (s, .readLinked signature tx (findOwned s.primary tx.signers) caller)
  | .readLinked signature tx primary caller =>
      (s, .create signature tx
        (addOwners (setOwners [] primary) (findOwned s.linked tx.signers)) caller)
  | .create signature tx owners caller =>
      if owners = [] ∧ tx.amount < env.minDepositLamports then (s, notRecorded signature caller)
      else if (s.findBySignature signature).isSome then (s, .findConflict signature caller)
      else if (s.transfers.get env.newId).isSome then (s, .done)
      else
        let row := depositRow signature tx owners
        ({ s with transfers := s.transfers.set env.newId row },
          recorded signature env.newId row caller)
  | .findConflict signature caller =>
      match s.findBySignature signature with
      | some (id, row) => (s, recorded signature id row caller)
      | none => (s, notRecorded signature caller)
  | .credit id => (s.afterCredit env id, .done)
  | .scan => (s, .scanList (s.cursor.map Prod.fst))
  | .scanList _ => (s, .scanNext env.listed)
  | .scanNext [] => (s, .retryHeld)
  | .scanNext ((signature, slot) :: rest) =>
      if (s.findBySignature signature).isSome then (s, .scanSave signature slot rest)
      else (s, .scanFetch signature slot rest)
  | .scanFetch signature slot rest =>
      match treasuryTx chain treasury env signature with
      | .missing => (s, .retryHeld)
      | .inbound txSlot amount signers =>
          (s, .readPrimary signature ⟨txSlot, amount, signers⟩ (.scan slot rest))
      | _ => (s, .scanSave signature slot rest)
  | .scanSave signature slot rest =>
      ({ s with cursor := some (signature, slot) }, .scanNext rest)
  | .retryHeld => (s, .retry s.findHeld)
  | .retry [] => (s, .done)
  | .retry (id :: ids) => (s.afterCredit env id, .retry ids)
  | .done => (s, .done)

end Step

/-! ## The system -/

abbrev CallId := Nat

structure CustodySystem where
  tables : CustodyDb
  calls : Table CallId Call

/-- How a call begins. -/
inductive Entry where
  | confirm (signature : Signature)
  | scan
  | retryHeld

def Entry.call : Entry → Call
  | .confirm signature => .confirm signature
  | .scan => .scan
  | .retryHeld => .retryHeld

inductive Act where
  | start (call : CallId) (entry : Entry)
  | run (call : CallId) (env : Env)
  | kill (call : CallId)
  /-- Wallets are linked, unlinked or made primary. -/
  | relink (primary linked : Table Address UserId)
  /-- Other parts of the system move balances. -/
  | other (db : Db)
  /-- The withdrawals write their own rows. -/
  | withdrawal (id : TransferId) (row : CustodyTransfer)

/-- The ledger rows of credits. -/
def creditRows (db : Db) : List BalanceLedger :=
  db.ledger.filter fun r => r.reason = "custody_deposit"

/-- The signature a ledger row is about. -/
def CustodyDb.signatureOf (s : CustodyDb) (r : BalanceLedger) : Option Signature :=
  (r.refId.bind s.transfers.get).bind CustodyTransfer.txSignature

/-- A withdrawal's row may be written: it is one, it is never held, and
`txSignature` stays unique. -/
def CustodyDb.mayWrite (s : CustodyDb) (id : TransferId) (row : CustodyTransfer) : Bool :=
  row.kind = .withdraw && row.status ≠ .held &&
    s.transfers.entries.all fun p =>
      if p.1 = id then p.2.kind = .withdraw
      else p.2.txSignature ≠ row.txSignature || row.txSignature = none

def step (chain : Signature → Option ChainTx) (treasury : Address) (s : CustodySystem) :
    Act → Option CustodySystem
  | .start call entry =>
      match s.calls.get call with
      | none => some { s with calls := s.calls.set call entry.call }
      | some _ => none
  | .run call env =>
      match s.calls.get call with
      | some c =>
          let r := c.step chain treasury s.tables env
          some ⟨r.1, s.calls.set call r.2⟩
      | none => none
  | .kill call => some { s with calls := s.calls.erase call }
  | .relink primary linked =>
      some { s with tables := { s.tables with primary := primary, linked := linked } }
  | .other db =>
      if creditRows db = creditRows s.tables.db then
        some { s with tables := { s.tables with db := db } }
      else none
  | .withdrawal id row =>
      if s.tables.mayWrite id row then
        some { s with tables := { s.tables with transfers := s.tables.transfers.set id row } }
      else none

/-- Before the first deposit. -/
def CustodySystem.initial (db : Db) (primary linked : Table Address UserId) : CustodySystem :=
  ⟨⟨db, primary, linked, .empty, none⟩, .empty⟩

end Scadium.Custody
