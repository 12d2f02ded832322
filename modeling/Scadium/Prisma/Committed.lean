/-
Scadium.Prisma.Committed — transactions that either commit or throw, as
functions on the database.

Where nothing depends on what a transaction that is aborted half-way
assigned to the variables around it, its body is a function from the
database to its result and the new database; one that throws has written
nothing. `moveBalance` is `applyBalanceDelta` read in this way.
-/
import Scadium.Prisma.Statements

namespace Scadium.Prisma

open Scadium.Lib

/-- What a transaction returns, or throws. -/
abbrev Committed (α : Type) := Except TxError α

namespace Committed

variable {α β : Type}

/-- `if (!c) throw e` -/
def ensure (c : Prop) [Decidable c] (e : TxError) : Committed Unit :=
  if c then .ok () else .error e

/-- A row that must be there. -/
def orThrow (o : Option α) (e : TxError) : Committed α :=
  match o with
  | some a => .ok a
  | none => .error e

/-- `applyBalanceDelta(tx, …)`, in a transaction that nothing aborts. -/
def moveBalance (db : Db) (userId : UserId) (delta : Int) (info : DeltaMeta) : Committed Db :=
  match (applyBalanceDelta userId delta info : DbTx Unit Int).run ⟨(), db, none⟩ with
  | .ok _ s => .ok s.db
  | .error e _ => .error e

variable {x : Committed α} {f : α → Committed β}

theorem bind_ok {b : β} : (x >>= f) = .ok b ↔ ∃ a, x = .ok a ∧ f a = .ok b := by
  cases x with
  | ok a =>
    show f a = .ok b ↔ _
    simp
  | error e =>
    show (.error e : Committed β) = .ok b ↔ _
    simp

@[simp] theorem ensure_ok {c : Prop} [Decidable c] {e : TxError} {u : Unit} :
    ensure c e = .ok u ↔ c := by
  unfold ensure
  split <;> simp_all

@[simp] theorem orThrow_ok {o : Option α} {e : TxError} {a : α} :
    orThrow o e = .ok a ↔ o = some a := by
  cases o <;> simp [orThrow]

variable {db db' : Db} {u : UserId} {delta : Int} {info : DeltaMeta}

/-- A movement is one on a user's row, with its ledger row. -/
theorem moveBalance_ok (h : moveBalance db u delta info = .ok db') :
    ∃ user, db.users u = some user ∧ db' = db.move u user delta info := by
  unfold moveBalance at h
  split at h
  case h_1 a t ht =>
    cases h
    obtain ⟨user, hu, -, -, hdb, -⟩ := applyBalanceDelta_ok ht
    exact ⟨user, hu, hdb⟩
  case h_2 => cases h

theorem moveBalance_balance (h : moveBalance db u delta info = .ok db') (v : UserId)
    (c : Currency) :
    db'.balance v c = db.balance v c + if v = u ∧ c = info.currency then delta else 0 := by
  obtain ⟨_, hu, rfl⟩ := moveBalance_ok h
  exact Db.balance_move hu delta info v c

end Committed

end Scadium.Prisma
