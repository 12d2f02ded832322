/-
Scadium.Games.Jackpot.Enter — `JackpotService.enter`
(`games/jackpot/jackpot.service.ts`): the transaction that debits the stake
and creates the entry on the condition that the round row is still open.

`EnterCall` is a call that has passed the checks; it carries the range of
its amount. The round it names is the one that was open in memory when the
checks ran, which may have closed since.
-/
import Scadium.Games.RoundGuards
import Scadium.Prisma.Idempotency
import Scadium.Prisma.Ledger
import Scadium.Shared.Constants

namespace Scadium.Games.Jackpot

open Scadium.Lib Scadium.Prisma Scadium.Shared

/-! ## Before the transaction -/

structure EnterCall where
  userId : UserId
  amountLamports : Nat
  roundId : RoundId
  key : Option String
  inRange : JACKPOT.MIN_ENTRY_LAMPORTS ≤ amountLamports ∧
    amountLamports ≤ JACKPOT.MAX_ENTRY_LAMPORTS

/-! ## The transaction -/

/-- The id and the time a new row gets. -/
structure EnterEnv where
  id : EntryId
  now : Time

/-- What the transaction returns. -/
inductive EnterOutcome where
  | replayed (response : String)
  | entered (response : String)
  deriving DecidableEq

def serializeEnter (roundId : RoundId) (amount : Nat) : String :=
  "\x7b\"ok\":true,\"roundId\":\"" ++ toString roundId ++ "\",\"amountLamports\":\""
    ++ toString amount ++ "\"\x7d"

/-- The unique keys of an entry: its id, and (roundId, userId). -/
def clashes (e f : JackpotEntry) : Bool :=
  f.id == e.id || f.roundId == e.roundId && f.userId == e.userId

/-- `jackpotEntry.create` -/
def createEntry (e : JackpotEntry) (db : Db) : Except TxError (Unit × Db) :=
  if db.jackpotEntries.any (clashes e) then .error p2002
  else .ok ((), { db with jackpotEntries := e :: db.jackpotEntries })

/-- The `catch` around it. -/
def alreadyEntered (e : TxError) : TxError :=
  if e = p2002 then .badRequest "Already entered this round" else e

/-- The entry a call creates. -/
def EnterCall.entry (call : EnterCall) (env : EnterEnv) : JackpotEntry :=
  ⟨env.id, call.roundId, call.userId, call.amountLamports, env.now⟩

def EnterCall.debit (call : EnterCall) : DeltaMeta :=
  { reason := "jackpot_entry", refType := "JackpotRound", refId := some call.roundId }

/-- #215 — the guarded no-op write on the round row. -/
def assertRoundStillOpen (roundId : RoundId) : DbTx Unit Unit := do
  let count ← Tx.statement (·.updateManyJackpotRound roundId (·.status == .open)
    fun r => { r with status := .open })
  if count = 0 then throw (.badRequest "Round just closed — your bet was not placed")

/-- The transaction of a call whose key is not a replay. -/
def placeEntry (deps : Deps) (call : EnterCall) (env : EnterEnv) : DbTx Unit EnterOutcome := do
  assertPooledEntry deps call.userId .jackpot call.roundId
  let _ ← applyBalanceDelta call.userId (-(call.amountLamports : Int)) call.debit
  Tx.statement fun db => (createEntry (call.entry env) db).mapError alreadyEntered
  assertRoundStillOpen call.roundId
  let response := serializeEnter call.roundId call.amountLamports
  storeIdempotency call.userId "jackpot_enter" call.key response
  pure (.entered response)

def enterTx (deps : Deps) (call : EnterCall) (env : EnterEnv) : DbTx Unit EnterOutcome := do
  let replay ← claimIdempotency call.userId "jackpot_enter" call.key
  match replay with
  | some response => pure (.replayed response)
  | none => placeEntry deps call env

/-! ## What a committed call did -/

variable {deps : Deps} {call : EnterCall} {env : EnterEnv}
variable {s t : TxState Unit Db TxError}

/-- The guard passes on an open row, and writes what was there. -/
theorem assertRoundStillOpen_ok {roundId : RoundId} {u : Unit}
    (h : (assertRoundStillOpen roundId).run s = .ok u t) :
    ∃ row, s.db.jackpotRounds roundId = some row ∧ row.status = .open ∧ t.db = s.db := by
  obtain ⟨_, _, hupdate, h⟩ := Tx.bind_eq_ok.mp h
  obtain ⟨hf, -⟩ := Tx.statement_ok hupdate
  simp only [Db.updateManyJackpotRound, Except.ok.injEq, Prod.mk.injEq] at hf
  obtain ⟨rfl, hdb⟩ := hf
  split at h
  case isTrue => exact absurd h Tx.throw_eq_ok.mp
  case isFalse hcount =>
    obtain ⟨-, rfl⟩ := Tx.pure_eq_ok.mp h
    obtain ⟨row, hrow, hopen, htable⟩ := claim_ok hcount
    have hstatus : row.status = .open := by simpa using hopen
    refine ⟨row, hrow, hstatus, ?_⟩
    rw [← hdb, htable]
    have hsame : ({ row with status := .open } : JackpotRound) = row := by rw [← hstatus]
    rw [hsame, ← hrow, Function.update_eq_self]

/-- The posting of a stake. -/
def EnterCall.posting (call : EnterCall) : Posting :=
  ⟨call.userId, .jeton, -(call.amountLamports : Int), "jackpot_entry", "JackpotRound",
    some call.roundId⟩

/-- A committed entry: the round row was open and stays as it was, the entry
is new, and the stake is debited. -/
structure Entered (call : EnterCall) (env : EnterEnv) (db db' : Db) : Prop where
  isOpen : ∃ row, db.jackpotRounds call.roundId = some row ∧ row.status = .open
  rounds : db'.jackpotRounds = db.jackpotRounds
  entries : db'.jackpotEntries = call.entry env :: db.jackpotEntries
  fresh : db.jackpotEntries.any (clashes (call.entry env)) = false
  posts : Posts [call.posting] db db'

theorem createEntry_ok {e : JackpotEntry} {db db' : Db} {u : Unit}
    (h : (createEntry e db).mapError alreadyEntered = .ok (u, db')) :
    db.jackpotEntries.any (clashes e) = false ∧
      db' = { db with jackpotEntries := e :: db.jackpotEntries } := by
  unfold createEntry at h
  split at h
  case isTrue => cases h
  case isFalse hfresh =>
    cases h
    exact ⟨by simpa using hfresh, rfl⟩

theorem placeEntry_ok {outcome : EnterOutcome}
    (h : (placeEntry deps call env).run s = .ok outcome t) : Entered call env s.db t.db := by
  obtain ⟨_, s₁, hpooled, h⟩ := Tx.bind_eq_ok.mp h
  obtain ⟨_, s₂, hdebit, h⟩ := Tx.bind_eq_ok.mp h
  obtain ⟨_, s₃, hcreate, h⟩ := Tx.bind_eq_ok.mp h
  obtain ⟨_, s₄, hguard, h⟩ := Tx.bind_eq_ok.mp h
  obtain ⟨_, s₅, hstore, h⟩ := Tx.bind_eq_ok.mp h
  obtain ⟨-, rfl⟩ := Tx.pure_eq_ok.mp h
  have hread : s₁.db = s.db := assertPooledEntry_keeps id _ _ _ _ _ _ _ hpooled
  obtain ⟨hfresh, hentry⟩ := createEntry_ok (Tx.statement_ok hcreate).1
  obtain ⟨row, hrow, hopen, hsame⟩ := assertRoundStillOpen_ok hguard
  -- the debit and the key leave the jackpot tables alone
  have hdebitKeeps : (s₂.db.jackpotRounds, s₂.db.jackpotEntries) =
      (s₁.db.jackpotRounds, s₁.db.jackpotEntries) :=
    applyBalanceDelta_keeps (p := fun db => (db.jackpotRounds, db.jackpotEntries))
      (fun _ _ _ => rfl) _ _ _ _ _ _ hdebit
  have hstoreKeeps : (s₅.db.jackpotRounds, s₅.db.jackpotEntries) =
      (s₄.db.jackpotRounds, s₄.db.jackpotEntries) :=
    storeIdempotency_keeps (p := fun db => (db.jackpotRounds, db.jackpotEntries))
      (fun _ _ => rfl) _ _ _ _ _ _ _ hstore
  simp only [Prod.mk.injEq] at hdebitKeeps hstoreKeeps
  have hrounds : s₃.db.jackpotRounds = s.db.jackpotRounds := by
    rw [hentry, hdebitKeeps.1, hread]
  refine ⟨⟨row, hrounds ▸ hrow, hopen⟩, ?_, ?_, ?_, ?_⟩
  · rw [hstoreKeeps.1, hsame, hrounds]
  · rw [hstoreKeeps.2, hsame, hentry, hdebitKeeps.2, hread]
  · rw [hdebitKeeps.2, hread] at hfresh
    exact hfresh
  · have hposts := applyBalanceDelta_posts hdebit
    rw [hread] at hposts
    have hinsert : Quiet s₂.db s₃.db := by
      rw [hentry]
      exact Posts.of_eq rfl rfl
    have hguarded : Quiet s₃.db s₄.db := by
      rw [hsame]
      exact Posts.refl _
    have hstored : Quiet s₄.db s₅.db := Posts.of_keeps (storeIdempotency_keeps
      (fun _ _ => rfl) _ _ _ _) hstore
    exact (hposts.trans_quiet hinsert).trans_quiet hguarded |>.trans_quiet hstored

/-- A committed call either replays, and changes nothing, or enters. -/
theorem enterTx_ok {outcome : EnterOutcome} (h : (enterTx deps call env).run s = .ok outcome t) :
    t.db = s.db ∨ Entered call env s.db t.db := by
  obtain ⟨replay, s₁, hclaim, h⟩ := Tx.bind_eq_ok.mp h
  cases replay with
  | some =>
    obtain ⟨-, rfl⟩ := Tx.pure_eq_ok.mp h
    exact .inl (claimIdempotency_replay hclaim)
  | none =>
    have hplaced := placeEntry_ok h
    have hkeeps : (s₁.db.jackpotRounds, s₁.db.jackpotEntries) =
        (s.db.jackpotRounds, s.db.jackpotEntries) :=
      claimIdempotency_keeps (p := fun db => (db.jackpotRounds, db.jackpotEntries))
        (fun _ _ => rfl) _ _ _ _ _ _ hclaim
    have hquiet : Quiet s.db s₁.db :=
      Posts.of_keeps (claimIdempotency_keeps (fun _ _ => rfl) _ _ _) hclaim
    simp only [Prod.mk.injEq] at hkeeps
    exact .inr
      { isOpen := hkeeps.1 ▸ hplaced.isOpen
        rounds := hplaced.rounds.trans hkeeps.1
        entries := hkeeps.2 ▸ hplaced.entries
        fresh := hkeeps.2 ▸ hplaced.fresh
        posts := hquiet.quiet_trans hplaced.posts }

/-- A call leaves everything but the accounts, its key and the two jackpot
tables alone. -/
theorem enterTx_keeps {γ : Type} {p : Db → γ} (hp : OffPlayers p)
    (hkeys : ∀ (db : Db) keys, p { db with idempotencyKeys := keys } = p db)
    (hentries : ∀ (db : Db) entries, p { db with jackpotEntries := entries } = p db) :
    Tx.Keeps p (enterTx deps call env) := by
  refine .bind (claimIdempotency_keeps hkeys _ _ _) fun replay => ?_
  cases replay with
  | some => exact .pure _
  | none =>
    refine .bind (assertPooledEntry_keeps p _ _ _ _) fun _ =>
      .bind (applyBalanceDelta_keeps hp.movement _ _ _) fun _ => .bind (.statement ?_) fun _ =>
        .bind ?_ fun _ => .bind (storeIdempotency_keeps hkeys _ _ _ _) fun _ => .pure _
    · intro db u db' h
      rw [(createEntry_ok h).2, hentries]
    · intro s u t h
      obtain ⟨_, -, -, hsame⟩ := assertRoundStillOpen_ok h
      rw [hsame]

end Scadium.Games.Jackpot
