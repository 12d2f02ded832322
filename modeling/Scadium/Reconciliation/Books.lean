/-
Scadium.Reconciliation.Books — what the hourly checks compare, and the
statements that write it.

`Books` are the tables the checks of
`apps/api/src/reconciliation/reconciliation.service.ts` read: the columns of
`User` that are kept beside other tables, the append-only `BalanceLedger`,
the unified `Bet` history, the vault's pools and positions; and the claims
of rewards. A transaction is a list of statements. It is taken as one step, in
the order of the commits: a movement holds the lock of its user's row until
it commits.

When a ledger row is created, and under which random id, is the environment's
choice: `clock n` is the stamp of the `n`-th row. Nothing is assumed of it,
so timestamps may coincide.
-/
import Mathlib.Data.Prod.Lex
import Scadium.Lib.Latest
import Scadium.Vault.Service

namespace Scadium.Reconciliation

open Scadium.Lib Scadium.Prisma Scadium.Prisma.Committed
open Scadium.Vault (VaultPool VaultPosition PoolId PositionId)

abbrev LedgerId := Nat
abbrev ClaimId := Nat

/-- `createdAt` and `id` of a ledger row, in the order `ORDER BY "createdAt", "id"`. -/
abbrev Stamp := Time ×ₗ LedgerId

/-! ## Tables -/

/-- Lifetime aggregates: columns of `User`, and what the bets add up to. -/
structure Aggregates where
  wagered : Int
  won : Int
  lost : Int
  biggest : Int
  games : Nat
  deriving DecidableEq

/-- A user, with one column per currency (`BALANCE_COLUMN`). -/
structure UserRow where
  banned : Bool
  balance : Currency → Int
  scadiumReserved : Int
  usdsReserved : Int
  cashbackBaselineLost : Int
  totals : Aggregates

/-- The play balance of a new user, in lamports. -/
def DEFAULT_PLAY_BALANCE : Int := 10000000000

/-- The column defaults. -/
def UserRow.new : UserRow where
  banned := false
  balance c := if c = .jeton then DEFAULT_PLAY_BALANCE else 0
  scadiumReserved := 0
  usdsReserved := 0
  cashbackBaselineLost := 0
  totals := ⟨0, 0, 0, 0, 0⟩

/-- `{ [column]: { increment: delta } }` -/
def UserRow.increment (row : UserRow) (c : Currency) (delta : Int) : UserRow :=
  { row with balance := Function.update row.balance c (row.balance c + delta) }

structure LedgerRow where
  stamp : Stamp
  userId : UserId
  currency : Currency
  delta : Int
  balanceAfter : Int

/-- The balance a row is about. -/
def LedgerRow.key (r : LedgerRow) : UserId × Currency := (r.userId, r.currency)

structure BetRow where
  userId : UserId
  amountLamports : Nat
  payoutLamports : Nat
  deriving DecidableEq

inductive ClaimKind where
  | wagerReward | cashback | dailyCase | dividend
  deriving DecidableEq

inductive ClaimStatus where
  | pending | confirmed | failed | offchain
  deriving DecidableEq

structure RewardClaim where
  userId : UserId
  kind : ClaimKind
  amountScad : Int
  status : ClaimStatus
  attempts : Nat

/-- The database. Ledger and bets are the lists of their rows, newest first. -/
structure Books where
  users : Table UserId UserRow
  ledger : List LedgerRow
  bets : List BetRow
  pools : Table PoolId VaultPool
  positions : Table PositionId VaultPosition
  claims : Table ClaimId RewardClaim

namespace Books

/-- A user's row; one who is not there yet has the defaults. -/
def row (s : Books) (u : UserId) : UserRow := (s.users.get u).getD .new

def betsOf (s : Books) (u : UserId) : List BetRow := s.bets.filter (·.userId = u)

/-- The shares of the positions in a pool. -/
def sharesIn (s : Books) (id : PoolId) : Nat :=
  s.positions.sum fun q => if q.poolId = id then q.shares else 0

/-- The principal of a user's positions. -/
def principalOf (s : Books) (u : UserId) : Nat :=
  s.positions.sum fun q => if q.userId = u then q.principal else 0

/-- Before the first user; the pools are there, without shares. -/
def initial (pools : Table PoolId VaultPool) : Books := ⟨.empty, [], [], pools, .empty, .empty⟩

end Books

/-! ## Statements -/

/-- `applyBalanceDelta` may move the row: `delta < 0` debits an unbanned
account that covers it, `delta > 0` credits, up to the cap if there is one. -/
def movable (row : Option UserRow) (delta : Int) (currency : Currency) (maxBalance : Option Int) :
    Committed UserRow :=
  if delta < 0 then
    orThrow (row.filter fun r => !r.banned && decide (-delta ≤ r.balance currency))
      (.badRequest "Insufficient balance")
  else if 0 < delta then
    match maxBalance with
    | some cap =>
        orThrow (row.filter fun r => decide (r.balance currency ≤ cap - delta))
          (.badRequest s!"{repr currency} balance cap reached")
    | none => orThrow row p2025
  else orThrow row p2025

variable (clock : Nat → Stamp)

def applyBalanceDelta (s : Books) (userId : UserId) (delta : Int) (currency : Currency)
    (maxBalance : Option Int) : Committed Books := do
  let row ← movable (s.users.get userId) delta currency maxBalance
  let balanceAfter := row.balance currency + delta
  pure { s with
    users := s.users.set userId (row.increment currency delta)
    ledger := ⟨clock s.ledger.length, userId, currency, delta, balanceAfter⟩ :: s.ledger }

/-- `tx.user.update`; P2025 without the user. -/
def updateUser (s : Books) (userId : UserId) (data : UserRow → UserRow) : Committed Books := do
  let row ← orThrow (s.users.get userId) p2025
  pure { s with users := s.users.set userId (data row) }

/-- One statement of a transaction. -/
inductive Stmt where
  /-- `applyBalanceDelta` -/
  | move (userId : UserId) (delta : Int) (currency : Currency) (maxBalance : Option Int)
  /-- `tx.user.update` of the aggregates, by increments, and with a profit
  `SET "biggestWin" = GREATEST("biggestWin", profit)` after it -/
  | record (userId : UserId) (wagered won lost : Int) (games : Nat) (profit : Option Int)
  /-- `tx.bet.create` -/
  | createBet (bet : BetRow)
  /-- `tx.vaultPool.update` -/
  | setPool (id : PoolId) (pool : VaultPool)
  /-- `tx.vaultPosition.create`, `update` and `delete` -/
  | putPosition (id : PositionId) (position : Option VaultPosition)

def Aggregates.record (a : Aggregates) (wagered won lost : Int) (games : Nat)
    (profit : Option Int) : Aggregates where
  wagered := a.wagered + wagered
  won := a.won + won
  lost := a.lost + lost
  biggest := match profit with
    | some profit => max a.biggest profit
    | none => a.biggest
  games := a.games + games

def putPosition (positions : Table PositionId VaultPosition) (id : PositionId) :
    Option VaultPosition → Table PositionId VaultPosition
  | some position => positions.set id position
  | none => positions.erase id

def execStmt (s : Books) : Stmt → Committed Books
  | .move userId delta currency maxBalance =>
      applyBalanceDelta clock s userId delta currency maxBalance
  | .record userId wagered won lost games profit =>
      updateUser s userId fun row =>
        { row with totals := row.totals.record wagered won lost games profit }
  | .createBet bet => .ok { s with bets := bet :: s.bets }
  | .setPool id pool => .ok { s with pools := s.pools.set id pool }
  | .putPosition id position => .ok { s with positions := putPosition s.positions id position }

def exec : Books → List Stmt → Committed Books
  | s, [] => .ok s
  | s, stmt :: rest => do
      let s' ← execStmt clock s stmt
      exec s' rest

/-! ## What a statement does to a row -/

namespace Stmt

/-- The balance it moves. -/
def key? : Stmt → Option (UserId × Currency)
  | .move userId _ currency _ => some (userId, currency)
  | _ => none

/-- A user's row after it. -/
def after (u : UserId) (row : UserRow) : Stmt → UserRow
  | .move userId delta currency _ => if userId = u then row.increment currency delta else row
  | .record userId wagered won lost games profit =>
      if userId = u then { row with totals := row.totals.record wagered won lost games profit }
      else row
  | _ => row

/-- What it adds to a balance. -/
def deltaOf (u : UserId) (c : Currency) : Stmt → Int
  | .move userId delta currency _ => if userId = u ∧ currency = c then delta else 0
  | _ => 0

end Stmt

section Effects

variable {clock} {s s' : Books} {u v : UserId} {c : Currency} {delta : Int}

theorem movable_ok {row : Option UserRow} {cap : Option Int} {r : UserRow}
    (h : movable row delta c cap = .ok r) : row = some r := by
  unfold movable at h
  split at h
  · exact (Option.filter_eq_some_iff.mp (orThrow_ok.mp h)).1
  · split at h
    · split at h
      · exact (Option.filter_eq_some_iff.mp (orThrow_ok.mp h)).1
      · exact orThrow_ok.mp h
    · exact orThrow_ok.mp h

theorem applyBalanceDelta_ok {cap : Option Int}
    (h : applyBalanceDelta clock s u delta c cap = .ok s') : ∃ row, s.users.get u = some row ∧
      s' = { s with
        users := s.users.set u (row.increment c delta)
        ledger := ⟨clock s.ledger.length, u, c, delta, row.balance c + delta⟩ :: s.ledger } := by
  simp only [applyBalanceDelta, bind_ok] at h
  obtain ⟨row, hrow, hs⟩ := h
  cases hs
  exact ⟨row, movable_ok hrow, rfl⟩

theorem updateUser_ok {data : UserRow → UserRow} (h : updateUser s u data = .ok s') :
    ∃ row, s.users.get u = some row ∧ s' = { s with users := s.users.set u (data row) } := by
  simp only [updateUser, bind_ok, orThrow_ok] at h
  obtain ⟨row, hrow, hs⟩ := h
  cases hs
  exact ⟨row, hrow, rfl⟩

theorem Books.row_eq {r : UserRow} (h : s.users.get u = some r) : s.row u = r := by
  simp [Books.row, h]

theorem Books.row_set {r : UserRow} (hs : s'.users = s.users.set u r) (v : UserId) :
    s'.row v = if v = u then r else s.row v := by
  unfold Books.row
  rw [hs, Table.get_set]
  split <;> rfl

@[simp] theorem UserRow.increment_balance (row : UserRow) (c c' : Currency) (delta : Int) :
    (row.increment c delta).balance c' = row.balance c' + if c = c' then delta else 0 := by
  unfold UserRow.increment
  by_cases h : c = c'
  · subst h
    simp
  · simp [h, Ne.symm h]

@[simp] theorem UserRow.increment_totals (row : UserRow) (c : Currency) (delta : Int) :
    (row.increment c delta).totals = row.totals := rfl

theorem Stmt.after_balance (stmt : Stmt) (row : UserRow) (c : Currency) :
    (stmt.after u row).balance c = row.balance c + stmt.deltaOf u c := by
  cases stmt with
  | move userId | record userId =>
    by_cases hu : userId = u
    · simp [after, deltaOf, hu]
    · simp [after, deltaOf, hu]
  | createBet | setPool | putPosition => simp [after, deltaOf]

theorem after_balance_list (stmts : List Stmt) (row : UserRow) (c : Currency) :
    (stmts.foldl (fun row stmt => stmt.after u row) row).balance c =
      row.balance c + (stmts.map (·.deltaOf u c)).sum := by
  induction stmts generalizing row with
  | nil => simp
  | cons stmt rest ih =>
    simp only [List.foldl_cons, ih, Stmt.after_balance, List.map_cons, List.sum_cons]
    omega

end Effects

end Scadium.Reconciliation
