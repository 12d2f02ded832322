/-
Scadium.Prisma.Statements — the Prisma calls the modelled transactions
make, as statements on `Db`, with the errors they raise.

`updateMany` with a `where` on the key and a guard returns how many rows it
matched (0 or 1); `update` and `findUniqueOrThrow` raise P2025 when the row
is missing; a `create` that breaks a unique index raises P2002.

`applyBalanceDelta` is the single mutation point of every balance
(`prisma/apply-balance-delta.ts`), `withSerializable` the retry loop
(`prisma/with-serializable.ts`).

Then what they do. `updateManyRow_cases` is the one case analysis of a guarded
update. `applyBalanceDelta_ok` says everything a movement that ended well did:
the user exists, a debit was covered by an unbanned account, the database is
`Db.move` of the old one. `balance_move` reads the new balances off.
-/
import Mathlib.Data.List.Infix
import Mathlib.Tactic.Common
import Scadium.Lib.Tx
import Scadium.Prisma.Schema

namespace Scadium.Prisma

open Scadium.Lib

/-- The errors a transaction body can end with. -/
inductive TxError where
  | badRequest (message : String)
  | conflict (message : String)
  | notFound (message : String)
  | forbidden (message : String)
  /-- `SettleClaimLostError` -/
  | settleClaimLost (message : String)
  /-- `PrismaClientKnownRequestError`, with the driver's code in `meta` -/
  | prisma (code : String) (metaCode : Option String) (message : String)
  /-- any other error -/
  | other (code : Option String) (message : String)
  deriving DecidableEq

def TxError.message : TxError → String
  | .badRequest m | .conflict m | .notFound m | .forbidden m | .settleClaimLost m => m
  | .prisma _ _ m => m
  | .other _ m => m

def TxError.code : TxError → Option String
  | .prisma c _ _ => some c
  | .other c _ => c
  | _ => none

def TxError.metaCode : TxError → Option String
  | .prisma _ m _ => m
  | _ => none

def TxError.isPrisma : TxError → Bool
  | .prisma .. => true
  | _ => false

def p2002 : TxError := .prisma "P2002" none "Unique constraint failed"
def p2025 : TxError := .prisma "P2025" none "No record was found"

/-- serialization_failure and deadlock_detected -/
def retryablePgCodes : List String := ["40001", "40P01"]

def isRetryable (e : TxError) : Bool :=
  (e.isPrisma && e.code == some "P2034")
    || retryablePgCodes.any (fun c => e.code == some c)
    || retryablePgCodes.any (fun c => e.metaCode == some c)
    || retryablePgCodes.any (fun c => decide (c.toList <:+: e.message.toList))

/-- A body on the database, with captured variables `κ`. -/
abbrev DbTx (κ : Type) := Tx κ Db TxError

/-! ## Statements -/

/-- `updateMany` on one key, with a guard: the number of rows matched. -/
def updateManyRow {ρ : Type} (table : Nat → Option ρ) (id : Nat) (guard : ρ → Bool)
    (data : ρ → ρ) : Nat × (Nat → Option ρ) :=
  match table id with
  | some row => if guard row then (1, Function.update table id (some (data row))) else (0, table)
  | none => (0, table)

/-- `update` on one key. -/
def updateRow {ρ : Type} (table : Nat → Option ρ) (id : Nat) (data : ρ → ρ) :
    Except TxError (Nat → Option ρ) :=
  match table id with
  | some row => .ok (Function.update table id (some (data row)))
  | none => .error p2025

namespace Db

def updateUser (db : Db) (u : UserId) (data : User → User) : Except TxError (Unit × Db) :=
  (updateRow db.users u data).map fun users => ((), { db with users := users })

def updateManyUser (db : Db) (u : UserId) (guard : User → Bool) (data : User → User) :
    Except TxError (Nat × Db) :=
  let (count, users) := updateManyRow db.users u guard data
  .ok (count, { db with users := users })

def findUser (db : Db) (u : UserId) : Except TxError (User × Db) :=
  match db.users u with
  | some user => .ok (user, db)
  | none => .error p2025

def updateSeed (db : Db) (id : SeedId) (data : Seed → Seed) : Except TxError (Unit × Db) :=
  (updateRow db.seeds id data).map fun seeds => ((), { db with seeds := seeds })

def updateManyJackpotRound (db : Db) (id : RoundId) (guard : JackpotRound → Bool)
    (data : JackpotRound → JackpotRound) : Except TxError (Nat × Db) :=
  let (count, rounds) := updateManyRow db.jackpotRounds id guard data
  .ok (count, { db with jackpotRounds := rounds })

def updateManyLotteryDraw (db : Db) (id : RoundId) (guard : LotteryDraw → Bool)
    (data : LotteryDraw → LotteryDraw) : Except TxError (Nat × Db) :=
  let (count, draws) := updateManyRow db.lotteryDraws id guard data
  .ok (count, { db with lotteryDraws := draws })

def updateManyCrashRound (db : Db) (id : RoundId) (guard : CrashRound → Bool)
    (data : CrashRound → CrashRound) : Except TxError (Nat × Db) :=
  let (count, rounds) := updateManyRow db.crashRounds id guard data
  .ok (count, { db with crashRounds := rounds })

def createBet (db : Db) (bet : Bet) : Db := { db with bets := bet :: db.bets }

def createLedger (db : Db) (row : BalanceLedger) : Db := { db with ledger := row :: db.ledger }

/-- `"biggestWin" = GREATEST("biggestWin", profit)`, no row no change. -/
def raiseBiggestWin (db : Db) (u : UserId) (profit : Int) : Db :=
  { db with users := (updateManyRow db.users u (fun _ => true)
      fun user => { user with biggestWin := max user.biggestWin profit }).2 }

end Db

/-! ## Balance movements -/

/-- Where a movement comes from. -/
structure DeltaMeta where
  reason : String
  refType : String
  refId : Option Nat
  currency : Currency := .jeton
  maxBalance : Option Int := none

/-- `{ [column]: { increment: delta } }` -/
def User.increment (user : User) (c : Currency) (delta : Int) : User :=
  { user with balance := Function.update user.balance c (user.balance c + delta) }

/-- A guarded `updateMany` on the user that must match. -/
def updateUserOrThrow {κ : Type} (userId : UserId) (guard : User → Bool) (data : User → User)
    (e : TxError) : DbTx κ Unit := do
  let count ← Tx.statement (·.updateManyUser userId guard data)
  if count = 0 then throw e

/-- The column update of `applyBalanceDelta`: `delta < 0` debits an unbanned
account that covers it, `delta > 0` credits, up to the cap if there is one. -/
def moveColumn {κ : Type} (userId : UserId) (delta : Int) (info : DeltaMeta) : DbTx κ Unit :=
  let column := info.currency
  if delta < 0 then
    updateUserOrThrow userId (fun u => !u.banned && decide (-delta ≤ u.balance column))
      (·.increment column delta) (.badRequest "Insufficient balance")
  else if 0 < delta then
    match info.maxBalance with
    | some cap =>
        updateUserOrThrow userId (fun u => decide (u.balance column ≤ cap - delta))
          (·.increment column delta) (.badRequest s!"{repr column} balance cap reached")
    | none => Tx.statement (·.updateUser userId (·.increment column delta))
  else pure ()

/-- The same-transaction read and the ledger row of `applyBalanceDelta`. -/
def recordMovement {κ : Type} (userId : UserId) (delta : Int) (info : DeltaMeta) :
    DbTx κ Int := do
  let user ← Tx.statement (·.findUser userId)
  let balanceAfter := user.balance info.currency
  Tx.update (·.createLedger ⟨userId, info.currency, delta, info.reason, info.refType,
    info.refId, balanceAfter⟩)
  return balanceAfter

def applyBalanceDelta {κ : Type} (userId : UserId) (delta : Int) (info : DeltaMeta) :
    DbTx κ Int := do
  moveColumn userId delta info
  recordMovement userId delta info

/-- The database after a movement of `delta` on `user`'s row. -/
def Db.move (db : Db) (userId : UserId) (user : User) (delta : Int) (info : DeltaMeta) : Db :=
  { db with
    users := Function.update db.users userId (some (user.increment info.currency delta))
    ledger := ⟨userId, info.currency, delta, info.reason, info.refType, info.refId,
      user.balance info.currency + delta⟩ :: db.ledger }

/-! ## The retry loop -/

/-- `withSerializable(prisma, fn, attempts)`; `next` supplies the attempts'
databases, aborts and environments. -/
def withSerializable {κ η α : Type} (fn : η → DbTx κ α) (next : Nat → Tx.Attempt Db TxError η)
    (attempts : Nat := 5) (vars : κ) : κ × Option (Except TxError (α × Db)) :=
  Tx.retrying isRetryable fn next attempts 0 vars

variable {κ : Type} {ρ : Type}

/-! ## What the statements do -/

/-- A guarded update matches the row and writes it, or does nothing. -/
theorem updateManyRow_cases (table : Nat → Option ρ) (id : Nat) (guard : ρ → Bool)
    (data : ρ → ρ) :
    (∃ row, table id = some row ∧ guard row = true ∧
      updateManyRow table id guard data =
        (1, Function.update table id (some (data row)))) ∨
    ((∀ row, table id = some row → guard row = false) ∧
      updateManyRow table id guard data = (0, table)) := by
  unfold updateManyRow
  cases hrow : table id with
  | none => exact Or.inr ⟨fun _ h => (nomatch h), rfl⟩
  | some row =>
    cases hg : guard row with
    | true => exact Or.inl ⟨row, rfl, hg, by simp [hg]⟩
    | false =>
      refine Or.inr ⟨fun r h => ?_, by simp [hg]⟩
      cases h
      exact hg

theorem updateRow_ok {table table' : Nat → Option ρ} {id : Nat} {data : ρ → ρ}
    (h : updateRow table id data = .ok table') :
    ∃ row, table id = some row ∧ table' = Function.update table id (some (data row)) := by
  unfold updateRow at h
  split at h
  case h_1 row hrow =>
    cases h
    exact ⟨row, hrow, rfl⟩
  case h_2 => cases h

theorem Db.updateUser_ok {db db' : Db} {u : UserId} {data : User → User} {a : Unit}
    (h : db.updateUser u data = .ok (a, db')) :
    ∃ user, db.users u = some user ∧
      db' = { db with users := Function.update db.users u (some (data user)) } := by
  unfold Db.updateUser at h
  cases hr : updateRow db.users u data with
  | error => simp [hr, Except.map] at h
  | ok =>
    simp only [hr, Except.map, Except.ok.injEq, Prod.mk.injEq, true_and] at h
    obtain ⟨user, hu, rfl⟩ := updateRow_ok hr
    exact ⟨user, hu, h.symm⟩

theorem Db.updateSeed_ok {db db' : Db} {id : SeedId} {data : Seed → Seed} {a : Unit}
    (h : db.updateSeed id data = .ok (a, db')) :
    ∃ seed, db.seeds id = some seed ∧
      db' = { db with seeds := Function.update db.seeds id (some (data seed)) } := by
  unfold Db.updateSeed at h
  cases hr : updateRow db.seeds id data with
  | error => simp [hr, Except.map] at h
  | ok =>
    simp only [hr, Except.map, Except.ok.injEq, Prod.mk.injEq, true_and] at h
    obtain ⟨seed, hseed, rfl⟩ := updateRow_ok hr
    exact ⟨seed, hseed, h.symm⟩

theorem Db.updateUser_some {db : Db} {u : UserId} {user : User} (hu : db.users u = some user)
    (data : User → User) :
    db.updateUser u data =
      .ok ((), { db with users := Function.update db.users u (some (data user)) }) := by
  simp [Db.updateUser, updateRow, hu, Except.map]

theorem Db.updateSeed_some {db : Db} {id : SeedId} {seed : Seed} (hs : db.seeds id = some seed)
    (data : Seed → Seed) :
    db.updateSeed id data =
      .ok ((), { db with seeds := Function.update db.seeds id (some (data seed)) }) := by
  simp [Db.updateSeed, updateRow, hs, Except.map]

/-! ## Balance movements -/

@[simp] theorem User.increment_self (user : User) (c : Currency) (delta : Int) :
    (user.increment c delta).balance c = user.balance c + delta := by
  simp [User.increment]

/-- The new balances: one user moves, in one currency. -/
theorem Db.balance_move {db : Db} {u : UserId} {user : User} (hu : db.users u = some user)
    (delta : Int) (info : DeltaMeta) (v : UserId) (c : Currency) :
    (db.move u user delta info).balance v c =
      db.balance v c + if v = u ∧ c = info.currency then delta else 0 := by
  by_cases hv : v = u
  · subst hv
    by_cases hc : c = info.currency
    · subst hc
      simp [Db.balance, Db.move, hu]
    · simp [Db.balance, Db.move, hu, User.increment, hc]
  · simp [Db.balance, Db.move, hv]

theorem recordMovement_ok {u : UserId} {delta : Int} {info : DeltaMeta}
    {s t : TxState κ Db TxError} {a : Int} (h : (recordMovement u delta info).run s = .ok a t) :
    ∃ user, s.db.users u = some user ∧ a = user.balance info.currency ∧
      t.db = s.db.createLedger ⟨u, info.currency, delta, info.reason, info.refType, info.refId,
        user.balance info.currency⟩ ∧ t.vars = s.vars := by
  obtain ⟨user, s₁, hfind, hrest⟩ := Tx.bind_eq_ok.mp h
  obtain ⟨w, _, hledger, hret⟩ := Tx.bind_eq_ok.mp hrest
  obtain ⟨hf, hv₁⟩ := Tx.statement_ok hfind
  obtain ⟨hl, hv₂⟩ := Tx.update_ok hledger
  obtain ⟨rfl, rfl⟩ := Tx.pure_eq_ok.mp hret
  have hdb : s.db.users u = some user ∧ s₁.db = s.db := by
    unfold Db.findUser at hf
    cases hu : s.db.users u with
    | none => simp [hu] at hf
    | some =>
      simp only [hu, Except.ok.injEq, Prod.mk.injEq] at hf
      exact ⟨by rw [hf.1], hf.2.symm⟩
  refine ⟨user, hdb.1, rfl, ?_, hv₂.trans hv₁⟩
  rw [hl, hdb.2]

/-- A guarded update that did not throw matched its row. -/
theorem updateUserOrThrow_ok {u : UserId} {guard : User → Bool} {data : User → User}
    {e : TxError} {s t : TxState κ Db TxError} {a : Unit}
    (h : (updateUserOrThrow u guard data e).run s = .ok a t) :
    ∃ user, s.db.users u = some user ∧ guard user = true ∧ t.vars = s.vars ∧
      t.db = { s.db with users := Function.update s.db.users u (some (data user)) } := by
  obtain ⟨_, _, hupd, hrest⟩ := Tx.bind_eq_ok.mp h
  obtain ⟨hf, hv⟩ := Tx.statement_ok hupd
  rcases updateManyRow_cases s.db.users u guard data with ⟨user, hu, hg, heq⟩ | ⟨-, heq⟩
  · simp only [Db.updateManyUser, heq, Except.ok.injEq, Prod.mk.injEq] at hf
    obtain ⟨rfl, hdb⟩ := hf
    obtain ⟨-, rfl⟩ := Tx.pure_eq_ok.mp hrest
    exact ⟨user, hu, hg, hv, hdb.symm⟩
  · simp only [Db.updateManyUser, heq, Except.ok.injEq, Prod.mk.injEq] at hf
    obtain ⟨rfl, -⟩ := hf
    exact absurd hrest Tx.throw_eq_ok.mp

/-- Moving the column and recording it is `Db.move`. -/
private theorem move_of_update {old db : Db} {u : UserId} {user user' : User} {delta : Int}
    {info : DeltaMeta}
    (hdb : db = { old with
      users := Function.update old.users u (some (user.increment info.currency delta)) })
    (hu' : db.users u = some user') :
    user'.balance info.currency = user.balance info.currency + delta ∧
    db.createLedger ⟨u, info.currency, delta, info.reason, info.refType, info.refId,
      user'.balance info.currency⟩ = old.move u user delta info := by
  subst hdb
  simp only [Function.update_self, Option.some.injEq] at hu'
  subst hu'
  simp [Db.createLedger, Db.move]

/-- Everything a movement that ended well did. -/
theorem applyBalanceDelta_ok {u : UserId} {delta : Int} {info : DeltaMeta}
    {s t : TxState κ Db TxError} {a : Int} (h : (applyBalanceDelta u delta info).run s = .ok a t) :
    ∃ user, s.db.users u = some user ∧
      (delta < 0 → user.banned = false ∧ -delta ≤ user.balance info.currency) ∧
      a = user.balance info.currency + delta ∧
      t.db = s.db.move u user delta info ∧ t.vars = s.vars := by
  obtain ⟨w, _, hmove, hrest⟩ := Tx.bind_eq_ok.mp h
  obtain ⟨user', hu', ha, hdb', hv'⟩ := recordMovement_ok hrest
  unfold moveColumn at hmove
  split at hmove
  case isTrue hneg =>
    obtain ⟨user, hu, hg, hv, hdb⟩ := updateUserOrThrow_ok hmove
    obtain ⟨hbal, hmv⟩ := move_of_update hdb hu'
    exact ⟨user, hu, fun _ => by simpa using hg, ha.trans hbal, hdb'.trans hmv, hv'.trans hv⟩
  case isFalse hneg =>
    split at hmove
    case isTrue hpos =>
      split at hmove
      case h_1 cap _ =>
        obtain ⟨user, hu, -, hv, hdb⟩ := updateUserOrThrow_ok hmove
        obtain ⟨hbal, hmv⟩ := move_of_update hdb hu'
        exact ⟨user, hu, fun h => absurd h hneg, ha.trans hbal, hdb'.trans hmv, hv'.trans hv⟩
      case h_2 =>
        obtain ⟨hf, hv⟩ := Tx.statement_ok hmove
        obtain ⟨user, hu, hdb⟩ := Db.updateUser_ok hf
        obtain ⟨hbal, hmv⟩ := move_of_update hdb hu'
        exact ⟨user, hu, fun h => absurd h hneg, ha.trans hbal, hdb'.trans hmv, hv'.trans hv⟩
    case isFalse hpos =>
      obtain ⟨-, rfl⟩ := Tx.pure_eq_ok.mp hmove
      obtain rfl : delta = 0 := by omega
      have hself : user'.increment info.currency 0 = user' := by simp [User.increment]
      refine ⟨user', hu', fun h => absurd h hneg, by simpa using ha, ?_, hv'⟩
      rw [hdb', Db.move, hself, ← hu', Function.update_eq_self]
      simp [Db.createLedger]

/-- A credit to an existing user, undisturbed. -/
theorem applyBalanceDelta_credit {u : UserId} {delta : Int} {info : DeltaMeta} {user : User}
    {s : TxState κ Db TxError} (hs : s.failAt = none) (hu : s.db.users u = some user)
    (hpos : 0 < delta) (hcap : info.maxBalance = none) :
    (applyBalanceDelta u delta info).run s =
      .ok (user.balance info.currency + delta) { s with db := s.db.move u user delta info } := by
  have hneg : ¬ delta < 0 := by omega
  have hmove : (moveColumn u delta info).run s = .ok () { s with
      db := { s.db with
        users := Function.update s.db.users u (some (user.increment info.currency delta)) } } := by
    simp only [moveColumn, hneg, if_false, hpos, if_true, hcap]
    rw [Tx.statement_clear hs, Tx.run_onDb, Db.updateUser_some hu]
  rw [applyBalanceDelta, EStateM.run_bind, hmove]
  simp only [recordMovement, EStateM.run_bind]
  rw [Tx.statement_clear (by exact hs), Tx.run_onDb]
  simp only [Db.findUser, Function.update_self]
  rw [Tx.update_clear (by exact hs)]
  simp [Db.createLedger, Db.move]

/-- A credit to an existing user succeeds, and keeps what does not depend on
balances and the ledger. -/
theorem applyBalanceDelta_succeeds {P : Db → Prop} {u : UserId} {delta : Int} {info : DeltaMeta}
    (hpos : 0 < delta) (hcap : info.maxBalance = none)
    (hP : ∀ db, P db → ∃ user, db.users u = some user ∧ P (db.move u user delta info)) :
    Tx.Succeeds P (applyBalanceDelta u delta info : DbTx κ Int) fun _ => P := by
  intro s hs hPs
  obtain ⟨_, hu, hmove⟩ := hP s.db hPs
  exact ⟨_, _, applyBalanceDelta_credit hs hu hpos hcap, hs, hmove⟩

theorem applyBalanceDelta_keepsVars {γ : Type} (q : κ → γ) (u : UserId) (delta : Int)
    (info : DeltaMeta) : Tx.KeepsVars q (applyBalanceDelta u delta info : DbTx κ Int) := by
  have hthrow : ∀ guard data e,
      Tx.KeepsVars q (updateUserOrThrow u guard data e : DbTx κ Unit) :=
    fun _ _ _ => .bind (.statement _) fun _ => .ite (.throw _) (.pure _)
  refine .bind ?_ fun _ => .bind (.statement _) fun _ => .bind (.update _) fun _ => .pure _
  unfold moveColumn
  refine .ite (hthrow _ _ _) (.ite ?_ (.pure _))
  split
  · exact hthrow _ _ _
  · exact .statement _

theorem applyBalanceDelta_blind (u : UserId) (delta : Int) (info : DeltaMeta) :
    Tx.Blind (applyBalanceDelta u delta info : DbTx κ Int) := by
  have hthrow : ∀ guard data e, Tx.Blind (updateUserOrThrow u guard data e : DbTx κ Unit) :=
    fun _ _ _ => .bind (.statement _) fun _ => .ite (.throw _) (.pure _)
  refine .bind ?_ fun _ => .bind (.statement _) fun _ => .bind (.update _) fun _ => .pure _
  unfold moveColumn
  refine .ite (hthrow _ _ _) (.ite ?_ (.pure _))
  split
  · exact hthrow _ _ _
  · exact .statement _

/-- A movement touches the user's row and the ledger only. -/
theorem applyBalanceDelta_keeps {γ : Type} {p : Db → γ}
    (hp : ∀ (db : Db) users ledger, p { db with users := users, ledger := ledger } = p db)
    (u : UserId) (delta : Int) (info : DeltaMeta) :
    Tx.Keeps p (applyBalanceDelta u delta info : DbTx κ Int) := by
  intro s a t h
  obtain ⟨_, -, -, -, hdb, -⟩ := applyBalanceDelta_ok h
  rw [hdb]
  exact hp _ _ _

end Scadium.Prisma
