/-
Scadium.Custody.Scan — the scan of the treasury's history, page by page
(`apps/api/src/custody/deposit.service.ts`, `custody-chain.ts`).

The calls are those of `Scadium.Custody.Transfers`; only the reading of the
history is finer, a page a step, while the history grows. The node lists the
signatures of the treasury newest first, in one order; which of the
transactions it shows is still the environment's choice.

What a task notes beside its call is not in the source: the history when its
scan began, and in which table `record` could have found an owner at each of
its two reads.
-/
import Scadium.Custody.Transfers
import Scadium.Lib.Paging

namespace Scadium.Custody.Scan

open Scadium.Lib Scadium.Prisma

/-- Which tables know a wallet of some signers. -/
structure Standing where
  primary : Bool
  linked : Bool
  deriving DecidableEq

def standing (s : CustodyDb) (signers : List Address) : Standing where
  primary := signers.any fun w => (s.primary.get w).isSome
  linked := signers.any fun w => (s.linked.get w).isSome

/-- No account owns one of the wallets. -/
def Standing.Unowned (w : Standing) : Prop := w.primary = false ∧ w.linked = false

instance (w : Standing) : Decidable w.Unowned := inferInstanceAs (Decidable (_ ∧ _))

structure Task where
  call : Call
  /-- `custodyConfig().scanPage` -/
  scanPage : Nat
  /-- of `signaturesSince` -/
  before : Option Signature
  out : List (Signature × Nat)
  /-- the history when the scan began -/
  goal : List Signature
  /-- at the reads of `user` and of `linkedWallet` -/
  first : Standing
  second : Standing

def Task.new (call : Call) (scanPage : Nat) : Task :=
  ⟨call, scanPage, none, [], [], ⟨false, false⟩, ⟨false, false⟩⟩

/-- At one of the reads of `record` no account owned a signer. -/
def Task.Unowned (t : Task) : Prop := t.first.Unowned ∨ t.second.Unowned

/-- Between the reads a linked wallet became a primary one: it was not primary
at the first, and no longer linked at the second. -/
def Task.Promoted (t : Task) : Prop := t.first = ⟨false, true⟩ ∧ t.second = ⟨true, false⟩

instance (t : Task) : Decidable t.Unowned := inferInstanceAs (Decidable (_ ∨ _))
instance (t : Task) : Decidable t.Promoted := inferInstanceAs (Decidable (_ ∧ _))

structure System where
  tables : CustodyDb
  tasks : Table CallId Task
  /-- the signatures of the treasury, newest first -/
  history : List Signature
  /-- transfers below the minimum that `record` ignored, of wallets no account owned -/
  dust : List Signature

section Step

variable (chain : Signature → Option ChainTx) (treasury : Address)

/-- `if (!s.err) out.push({ signature, slot })` -/
def entry (signature : Signature) : Option (Signature × Nat) :=
  (chain signature).bind fun tx => if tx.err then none else some (signature, tx.slot)

/-- One page of `signaturesSince`. -/
def Task.readPage (history : List Signature) (since : Option Signature) (t : Task) : Task :=
  let page := pageOf history t.before since t.scanPage
  let out := t.out ++ page.filterMap (entry chain)
  if page.length < t.scanPage then { t with call := .scanNext out.reverse }
  else
    match page.getLast? with
    | some last => { t with before := some last, out := out }
    -- `page[page.length - 1]!.signature` throws
    | none => { t with call := .done }

def Task.note (s : System) (t : Task) : Task :=
  match t.call with
  | .scan => { t with goal := s.history }
  | .readPrimary _ tx _ => { t with first := standing s.tables tx.signers }
  | .readLinked _ tx _ _ => { t with second := standing s.tables tx.signers }
  | _ => t

def Task.step (s : System) (env : Env) (t : Task) : CustodyDb × Task :=
  match t.call with
  | .scanList since => (s.tables, t.readPage chain s.history since)
  | c =>
      let r := c.step chain treasury s.tables env
      (r.1, { t.note s with call := r.2 })

/-- What a scan takes for dust of nobody. -/
def Task.ignored (env : Env) (t : Task) : List Signature :=
  match t.call with
  | .create signature tx owners (.scan ..) =>
      if owners = [] ∧ tx.amount < env.minDepositLamports ∧ t.Unowned then [signature] else []
  | _ => []

end Step

inductive Act where
  | start (call : CallId) (entry : Entry) (scanPage : Nat)
  | run (call : CallId) (env : Env)
  | kill (call : CallId)
  /-- A transaction of the treasury is listed. -/
  | land (signature : Signature)
  | relink (primary linked : Table Address UserId)
  | other (db : Db)
  | withdrawal (id : TransferId) (row : CustodyTransfer)

/-- The treasury signed it, as it signs every withdrawal. -/
def Outgoing (chain : Signature → Option ChainTx) (treasury : Address) (row : CustodyTransfer) :
    Prop :=
  ∀ signature ∈ row.txSignature, ∀ tx ∈ chain signature, treasury ∈ tx.signers

instance (chain : Signature → Option ChainTx) (treasury : Address) (row : CustodyTransfer) :
    Decidable (Outgoing chain treasury row) :=
  inferInstanceAs (Decidable (∀ signature ∈ row.txSignature, ∀ tx ∈ chain signature, _))

def step (chain : Signature → Option ChainTx) (treasury : Address) (s : System) :
    Act → Option System
  | .start call entry scanPage =>
      match s.tasks.get call with
      | none => some { s with tasks := s.tasks.set call (.new entry.call scanPage) }
      | some _ => none
  | .run call env =>
      match s.tasks.get call with
      | some t =>
          let r := t.step chain treasury s env
          some { s with
            tables := r.1
            tasks := s.tasks.set call r.2
            dust := t.ignored env ++ s.dust }
      | none => none
  | .kill call => some { s with tasks := s.tasks.erase call }
  | .land signature =>
      if (chain signature).isSome ∧ signature ∉ s.history then
        some { s with history := signature :: s.history }
      else none
  | .relink primary linked =>
      some { s with tables := { s.tables with primary := primary, linked := linked } }
  | .other db => some { s with tables := { s.tables with db := db } }
  | .withdrawal id row =>
      if s.tables.mayWrite id row ∧ Outgoing chain treasury row then
        some { s with tables := { s.tables with transfers := s.tables.transfers.set id row } }
      else none

/-- Before the first scan. -/
def System.initial (db : Db) (primary linked : Table Address UserId) (history : List Signature) :
    System :=
  ⟨⟨db, primary, linked, .empty, none⟩, .empty, history, []⟩

end Scadium.Custody.Scan
