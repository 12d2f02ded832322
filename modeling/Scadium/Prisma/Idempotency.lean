/-
Scadium.Prisma.Idempotency — the idempotency keys of the money-moving
commands (`prisma/idempotency.ts`): claimed at the top of the command's
transaction, given the response at its end.
-/
import Scadium.Prisma.Statements

namespace Scadium.Prisma

open Scadium.Lib

variable {κ γ : Type}

/-- `createMany` with `skipDuplicates`: the number of rows created. -/
def Db.createManyIdempotencyKey (db : Db) (ref : IdempotencyRef) : Except TxError (Nat × Db) :=
  match db.idempotencyKeys ref with
  | some _ => .ok (0, db)
  | none => .ok (1, { db with
      idempotencyKeys := Function.update db.idempotencyKeys ref (some none) })

/-- `update` of the stored response. -/
def Db.updateIdempotencyKey (db : Db) (ref : IdempotencyRef) (response : String) :
    Except TxError (Unit × Db) :=
  match db.idempotencyKeys ref with
  | some _ => .ok ((), { db with
      idempotencyKeys := Function.update db.idempotencyKeys ref (some (some response)) })
  | none => .error p2025

/-- The stored response of a completed request, or the 409 of one in flight. -/
def replayIdempotency (ref : IdempotencyRef) : DbTx κ (Option String) := do
  let existing ← Tx.query (·.idempotencyKeys ref)
  match existing with
  | some (some response) => pure (some response)
  | _ => throw (.conflict "Request already in progress")

/-- `none`: there is no key, or it is claimed now. -/
def claimIdempotency (userId : UserId) (scope : String) (key : Option String) :
    DbTx κ (Option String) :=
  match key with
  | none => pure none
  | some clientKey =>
      if clientKey = "" then pure none
      else do
        let count ← Tx.statement (·.createManyIdempotencyKey (userId, scope, clientKey))
        if count = 1 then pure none else replayIdempotency (userId, scope, clientKey)

def storeIdempotency (userId : UserId) (scope : String) (key : Option String)
    (response : String) : DbTx κ Unit :=
  match key with
  | none => pure ()
  | some clientKey =>
      if clientKey = "" then pure ()
      else Tx.statement (·.updateIdempotencyKey (userId, scope, clientKey) response)

/-! ## What they touch -/

section Frames

variable {p : Db → γ} (hp : ∀ (db : Db) keys, p { db with idempotencyKeys := keys } = p db)
include hp

theorem claimIdempotency_keeps (userId : UserId) (scope : String) (key : Option String) :
    Tx.Keeps p (claimIdempotency userId scope key : DbTx κ (Option String)) := by
  unfold claimIdempotency
  split
  · exact .pure _
  · refine .ite (.pure _) (.bind (.statement ?_) fun _ => .ite (.pure _) (.bind (.query _)
      fun existing => ?_))
    · intro db count db' h
      unfold Db.createManyIdempotencyKey at h
      split at h
      · cases h
        rfl
      · cases h
        exact hp db _
    · split
      · exact .pure _
      · exact .throw _

theorem storeIdempotency_keeps (userId : UserId) (scope : String) (key : Option String)
    (response : String) :
    Tx.Keeps p (storeIdempotency userId scope key response : DbTx κ Unit) := by
  unfold storeIdempotency
  split
  · exact .pure _
  · refine .ite (.pure _) (.statement ?_)
    intro db u db' h
    unfold Db.updateIdempotencyKey at h
    split at h
    · cases h
      exact hp db _
    · cases h

end Frames

/-! ## What they do -/

/-- The row of a client's key; none where it sent none. -/
def idempotencyRef (userId : UserId) (scope : String) (key : Option String) :
    Option IdempotencyRef :=
  (key.filter (· ≠ "")).map fun clientKey => (userId, scope, clientKey)

section Specs

variable {userId : UserId} {scope : String} {key : Option String} {s t : TxState κ Db TxError}

/-- There is no key; or it was free and is claimed; or it has a response,
and nothing changes. -/
theorem claimIdempotency_ok {replay : Option String}
    (h : (claimIdempotency userId scope key).run s = .ok replay t) :
    (idempotencyRef userId scope key = none ∧ replay = none ∧ t.db = s.db) ∨
      ∃ ref, idempotencyRef userId scope key = some ref ∧
        ((replay = none ∧ s.db.idempotencyKeys ref = none ∧ t.db = { s.db with
            idempotencyKeys := Function.update s.db.idempotencyKeys ref (some none) }) ∨
          ∃ response, replay = some response ∧
            s.db.idempotencyKeys ref = some (some response) ∧ t.db = s.db) := by
  unfold claimIdempotency at h
  split at h
  · obtain ⟨rfl, rfl⟩ := Tx.pure_eq_ok.mp h
    exact .inl ⟨rfl, rfl, rfl⟩
  · rename_i clientKey
    split at h
    · rename_i hempty
      obtain ⟨rfl, rfl⟩ := Tx.pure_eq_ok.mp h
      exact .inl ⟨by simp [idempotencyRef, hempty], rfl, rfl⟩
    · rename_i hkey
      refine .inr ⟨(userId, scope, clientKey), by simp [idempotencyRef, hkey], ?_⟩
      obtain ⟨_, _, hclaim, h⟩ := Tx.bind_eq_ok.mp h
      obtain ⟨hf, -⟩ := Tx.statement_ok hclaim
      unfold Db.createManyIdempotencyKey at hf
      split at hf <;> simp only [Except.ok.injEq, Prod.mk.injEq] at hf <;>
        obtain ⟨rfl, hclaimed⟩ := hf
      · rw [if_neg (by decide)] at h
        obtain ⟨_, _, hread, h⟩ := Tx.bind_eq_ok.mp h
        obtain ⟨hexisting, hdb, -⟩ := Tx.query_ok hread
        split at h
        · rename_i response
          obtain ⟨rfl, rfl⟩ := Tx.pure_eq_ok.mp h
          refine .inr ⟨response, rfl, ?_, ?_⟩
          · rw [hclaimed]
            exact hexisting.symm
          · rw [hdb, ← hclaimed]
        · exact absurd h Tx.throw_eq_ok.mp
      · rename_i hfree
        rw [if_pos rfl] at h
        obtain ⟨rfl, rfl⟩ := Tx.pure_eq_ok.mp h
        exact .inl ⟨rfl, hfree, hclaimed.symm⟩

/-- The response is written over what the key had. -/
theorem storeIdempotency_ok {response : String} {u : Unit}
    (h : (storeIdempotency userId scope key response).run s = .ok u t) :
    (idempotencyRef userId scope key = none ∧ t.db = s.db) ∨
      ∃ ref, idempotencyRef userId scope key = some ref ∧ t.db = { s.db with
        idempotencyKeys :=
          Function.update s.db.idempotencyKeys ref (some (some response)) } := by
  unfold storeIdempotency at h
  split at h
  · obtain ⟨-, rfl⟩ := Tx.pure_eq_ok.mp h
    exact .inl ⟨rfl, rfl⟩
  · rename_i clientKey
    split at h
    · rename_i hempty
      obtain ⟨-, rfl⟩ := Tx.pure_eq_ok.mp h
      exact .inl ⟨by simp [idempotencyRef, hempty], rfl⟩
    · rename_i hkey
      refine .inr ⟨(userId, scope, clientKey), by simp [idempotencyRef, hkey], ?_⟩
      obtain ⟨hf, -⟩ := Tx.statement_ok h
      unfold Db.updateIdempotencyKey at hf
      split at hf
      · simp only [Except.ok.injEq, Prod.mk.injEq, true_and] at hf
        exact hf.symm
      · cases hf

/-- A replay leaves the database as it was. -/
theorem claimIdempotency_replay {response : String}
    (h : (claimIdempotency userId scope key).run s = .ok (some response) t) : t.db = s.db := by
  rcases claimIdempotency_ok h with ⟨-, hnone, -⟩ | ⟨_, -, ⟨hnone, -⟩ | ⟨_, -, -, hsame⟩⟩
  · cases hnone
  · cases hnone
  · exact hsame

end Specs

end Scadium.Prisma
