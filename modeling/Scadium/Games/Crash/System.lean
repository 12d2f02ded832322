/-
Scadium.Games.Crash.System — crash as a system: the database, the
processes with the round each holds in memory, and the calls, settles and
recoveries in flight (`crash.service.ts`, `crash.engine.ts`).

A step is what runs between two awaits, or one committed or aborted
transaction; the processes' steps interleave freely, and `kill` stops a
process between any two of them. Leadership is not part of the state: a
process that has lost it, or has not, may take every step here, and the one
transaction that asks for it asks its environment. The timers and the loop
that order the steps of one process are left open in the same way, so what
holds of every run here holds under any scheduling. Scheduled bets are left
out, and what a cash-out pays is the environment's choice.

`terminals` is a log of the commits that made a round terminal, with what
was held in memory at that moment; no step reads it.
-/
import Scadium.Games.Crash.CashOut

namespace Scadium.Games.Crash

open Scadium.Lib Scadium.Prisma

/-! ## State -/

/-- A process. -/
abbrev Inst := Nat

/-- Where a round is held in memory: as a process's `this.current`, or by a
call of `startNewRound` that has created its row and not installed it. -/
inductive Place where
  | engine (i : Inst)
  | opening (i : Inst) (k : Nat)
  deriving DecidableEq

def Place.inst : Place → Inst
  | .engine i => i
  | .opening i _ => i

/-- How far a call of the service's `placeBet` has come. -/
inductive BetPhase where
  /-- The round id is captured; the transaction has not committed. -/
  | captured
  /-- It ended without a debit. -/
  | ended
  /-- Debited, with a row. -/
  | committed
  /-- The engine took the bet. -/
  | accepted
  /-- The engine refused it. -/
  | rejected
  /-- The refund threw: the call is over. -/
  | unpaid
  /-- The stake is back; the row is still there. -/
  | refunded
  /-- The deletion of the row was tried. -/
  | done
  deriving DecidableEq

/-- A call in flight or over, in process `inst`. -/
structure Placing where
  inst : Inst
  call : BetCall
  phase : BetPhase
  alive : Bool

/-- A live settle: the round that went bust and the bets captured from it. -/
structure Settling where
  inst : Inst
  roundId : RoundId
  bets : List LiveBet

/-- A recovery, after its read of the rows. -/
structure Recovery where
  inst : Inst
  round : StrandedRound
  bets : List CrashBet

/-- The write of a cash-out to its row. -/
structure CashOut where
  inst : Inst
  roundId : RoundId
  userId : UserId
  remainingLamports : Nat
  payoutLamports : Nat
  multiplier : Rat
  deriving DecidableEq

/-- A commit that made a round terminal, and the rounds in memory then. -/
structure Terminal where
  roundId : RoundId
  held : Place → Option Round

structure State where
  db : Db
  held : Place → Option Round
  draining : Inst → Bool
  calls : EntryId → Option Placing
  /-- `status: 'running'` on its way, by process. -/
  writes : List (Inst × RoundId)
  cashOuts : List CashOut
  settles : Nat → Option Settling
  recoveries : Nat → Option Recovery
  terminals : List Terminal

/-- Nothing in memory. -/
def State.boot (db : Db) : State where
  db := db
  held _ := none
  draining _ := false
  calls _ := none
  writes := []
  cashOuts := []
  settles _ := none
  recoveries _ := none
  terminals := []

structure Config where
  deps : Deps
  chainEnabled : Bool

/-! ## Pieces of a step -/

section Pieces

variable (s : State)

def State.setHeld (p : Place) (round : Option Round) : State :=
  { s with held := Function.update s.held p round }

def State.setCall (c : EntryId) (placing : Placing) : State :=
  { s with calls := Function.update s.calls c (some placing) }

/-- A round is terminal in the database. -/
def Busted (db : Db) (r : RoundId) : Prop :=
  ∃ row, db.crashRounds r = some row ∧ row.status = .busted

/-- The rows of a new round and its seed. -/
def createRound (created : Created) (beaconRound : Option Int) (db : Db) : Db :=
  { db with
    seeds := Function.update db.seeds created.seedId
      (some ⟨created.serverSeedHash, created.serverSeed, created.clientSeed, none⟩)
    crashRounds := Function.update db.crashRounds created.id
      (some ⟨created.seedId, 0, .waiting, none, none, beaconRound⟩) }

/-- `crashRound.update` of the status, without a guard. -/
def writeRunning (r : RoundId) (db : Db) : Db :=
  match updateRow db.crashRounds r fun row => { row with status := .running } with
  | .ok rounds => { db with crashRounds := rounds }
  | .error _ => db

/-- `crashBet.update` of a cash-out. -/
def persistCashOut (co : CashOut) (db : Db) : Db :=
  { db with crashBets := db.crashBets.map fun b =>
      if isBetOf co.roundId co.userId b then
        { b with
          remainingLamports := co.remainingLamports
          payoutLamports := co.payoutLamports
          cashoutMultiplier := some co.multiplier }
      else b }

def keyOf (call : BetCall) : IdempotencyRef := (call.userId, "crash_bet", call.key.getD "")

def serializePlaced (roundId : RoundId) : String :=
  "\x7b\"ok\":true,\"roundId\":\"" ++ toString roundId ++ "\"\x7d"

end Pieces

/-! ## Steps -/

inductive Event where
  /-- `startNewRound` has created the rows. -/
  | create (i : Inst) (k : Nat) (created : Created) (openedAt : Time) (beaconRound : Option Int)
  | install (i : Inst) (k : Nat)
  /-- It was abandoned. -/
  | abandon (i : Inst) (k : Nat)
  /-- A call of `placeBet` has passed its checks. -/
  | begin (c : EntryId) (i : Inst) (call : BetCall)
  | commit (c : EntryId) (failAt : Option (Nat × TxError))
  /-- The engine decides. -/
  | decide (c : EntryId)
  | refund (c : EntryId) (failAt : Option (Nat × TxError))
  | deleteRow (c : EntryId) (deleted : Bool)
  | dropKey (c : EntryId)
  | creditReferrer (c : EntryId) (failAt : Option (Nat × TxError))
  | storeKey (c : EntryId)
  /-- `beginRun` up to its first await. -/
  | closeBets (i : Inst)
  /-- The round flies; its status is on its way to the row. -/
  | fly (i : Inst)
  | writeRunning (i : Inst) (r : RoundId) (written : Bool)
  | cashOut (i : Inst) (userId : UserId) (portion payout : Nat) (m : Rat)
  | persistCashOut (co : CashOut) (written : Bool)
  /-- `bust`, up to the settle of the bets captured then. -/
  | bust (i : Inst) (k : Nat)
  /-- One attempt of that settle. -/
  | settle (k : Nat) (env : SettleEnv) (entropy : Option Bytes32) (failAt : Option (Nat × TxError))
  | giveUp (k : Nat)
  /-- A recovery pass has read the rows of a round. -/
  | readBets (k : Nat) (i : Inst) (r : RoundId)
  | recover (k : Nat) (env : SettleEnv) (failAt : Option (Nat × TxError))
  | skip (k : Nat)
  /-- Shutdown: no new bets. -/
  | drain (i : Inst)
  /-- The process stops. -/
  | kill (i : Inst)

section Steps

variable (cfg : Config) (s : State)

/-- The call `c`, if it is alive in `phase`. -/
def State.at_ (c : EntryId) (phase : BetPhase) : Option Placing :=
  (s.calls c).filter fun p => p.alive && p.phase == phase

/-- The call moves on. -/
def State.move (c : EntryId) (p : Placing) (phase : BetPhase) : State :=
  s.setCall c { p with phase := phase }

def stepCreate (i : Inst) (k : Nat) (created : Created) (openedAt : Time)
    (beaconRound : Option Int) : Option State :=
  if s.db.crashRounds created.id = none ∧ s.db.seeds created.seedId = none ∧
      s.held (.opening i k) = none then
    some { s.setHeld (.opening i k) (some (created.round openedAt beaconRound)) with
      db := createRound created beaconRound s.db }
  else none

def stepInstall (i : Inst) (k : Nat) : Option State :=
  match s.held (.opening i k) with
  | none => none
  | some round => some ((s.setHeld (.opening i k) none).setHeld (.engine i) (some round))

def stepBegin (c : EntryId) (i : Inst) (call : BetCall) : Option State :=
  match s.calls c, s.held (.engine i) with
  | none, some round =>
      if call.roundId = round.id then some (s.setCall c ⟨i, call, .captured, true⟩) else none
  | _, _ => none

/-- A replay, like any failure before the commit, ends the call. -/
def stepCommit (c : EntryId) (failAt : Option (Nat × TxError)) : Option State :=
  match s.at_ c .captured with
  | none => none
  | some p =>
      match (Tx.transact (betTx p.call c) () s.db failAt).2 with
      | .ok (.debited, db') => some { s.move c p .committed with db := db' }
      | .ok (.replayed _, db') => some { s.move c p .ended with db := db' }
      | .error _ => some (s.move c p .ended)

def stepDecide (c : EntryId) : Option State :=
  match s.at_ c .committed with
  | none => none
  | some p =>
      match s.held (.engine p.inst) with
      | none => none
      | some round =>
          match placeBet cfg.chainEnabled (s.draining p.inst) round p.call.params with
          | .ok round' => some ((s.setHeld (.engine p.inst) (some round')).move c p .accepted)
          | .error _ => some (s.move c p .rejected)

def stepRefund (c : EntryId) (failAt : Option (Nat × TxError)) : Option State :=
  match s.at_ c .rejected with
  | none => none
  | some p =>
      match (Tx.transact (refundTx p.call) () s.db failAt).2 with
      | .ok (_, db') => some { s.move c p .refunded with db := db' }
      | .error _ => some (s.move c p .unpaid)

def stepDeleteRow (c : EntryId) (deleted : Bool) : Option State :=
  match s.at_ c .refunded with
  | none => none
  | some p =>
      let db' := if deleted then deleteManyCrashBet p.call.roundId p.call.userId s.db else s.db
      some { s.move c p .done with db := db' }

/-- A key that is not given is not in the table. -/
def stepDropKey (c : EntryId) : Option State :=
  (s.at_ c .done).map fun p =>
    { s with db := { s.db with
        idempotencyKeys := Function.update s.db.idempotencyKeys (keyOf p.call) none } }

def stepCreditReferrer (c : EntryId) (failAt : Option (Nat × TxError)) : Option State :=
  (s.at_ c .accepted).map fun p =>
    let body : DbTx Unit Unit :=
      creditReferral cfg.deps p.call.userId p.call.amountLamports .crash
    { s with db := Tx.dbAfter s.db (Tx.transact body () s.db failAt).2 }

def stepStoreKey (c : EntryId) : Option State :=
  (s.at_ c .accepted).map fun p =>
    let body : DbTx Unit Unit :=
      storeIdempotency p.call.userId "crash_bet" p.call.key (serializePlaced p.call.roundId)
    { s with db := Tx.dbAfter s.db (Tx.transact body () s.db none).2 }

/-- A change of the round that process `i` holds, if `guard` allows it. -/
def stepRound (i : Inst) (guard : Round → Bool) (f : Round → Round) : Option State :=
  match s.held (.engine i) with
  | none => none
  | some round => if guard round then some (s.setHeld (.engine i) (some (f round))) else none

def stepFly (i : Inst) : Option State :=
  match s.held (.engine i) with
  | none => none
  | some round =>
      if round.betsClosed ∧ round.phase = .waiting then
        some { s.setHeld (.engine i) (some { round with phase := .running }) with
          writes := (i, round.id) :: s.writes }
      else none

def stepWriteRunning (i : Inst) (r : RoundId) (written : Bool) : Option State :=
  if (i, r) ∈ s.writes then
    some { s with
      writes := s.writes.erase (i, r)
      db := if written then writeRunning r s.db else s.db }
  else none

/-- In memory; the write to the row is on its way. -/
def stepCashOut (i : Inst) (userId : UserId) (portion payout : Nat) (m : Rat) : Option State :=
  match s.held (.engine i) with
  | none => none
  | some round =>
      match round.bets.find? (·.userId == userId) with
      | none => none
      | some bet =>
          if round.phase = .running ∧ portion ≤ bet.amountLamports then
            let bet' := bet.cashOut portion payout m
            some { s.setHeld (.engine i) (some (round.cashOut userId portion payout m)) with
              cashOuts := ⟨i, round.id, userId, bet'.amountLamports, bet'.payoutLamports,
                bet'.cashedOutAt.getD m⟩ :: s.cashOuts }
          else none

def stepPersistCashOut (co : CashOut) (written : Bool) : Option State :=
  if co ∈ s.cashOuts then
    some { s with
      cashOuts := s.cashOuts.erase co
      db := if written then persistCashOut co s.db else s.db }
  else none

/-- The tick loop starts when the write of the status is through. -/
def stepBust (i : Inst) (k : Nat) : Option State :=
  match s.held (.engine i), s.settles k with
  | some round, none =>
      if round.phase = .running ∧ (i, round.id) ∉ s.writes then
        some { s.setHeld (.engine i) (some { round with phase := .busted }) with
          settles := Function.update s.settles k (some ⟨i, round.id, round.bets⟩) }
      else none
  | _, _ => none

/-- The closure reads `this.current` when it runs. -/
def stepSettle (k : Nat) (env : SettleEnv) (entropy : Option Bytes32)
    (failAt : Option (Nat × TxError)) : Option State :=
  match s.settles k with
  | none => none
  | some st =>
      match s.held (.engine st.inst) with
      | none => none
      | some current =>
          match (Tx.transact (settleTx cfg.deps env current entropy st.bets) () s.db failAt).2 with
          | .ok (_, db') => some { s with
              db := db'
              settles := Function.update s.settles k none
              terminals := ⟨current.id, s.held⟩ :: s.terminals }
          | .error _ => some s

/-- The scan that named the round may be older than the read of its rows. -/
def stepReadBets (k : Nat) (i : Inst) (r : RoundId) : Option State :=
  match s.recoveries k, s.db.crashRounds r with
  | none, some row =>
      let rc : Recovery := ⟨i, ⟨r, row.seedId⟩, s.db.crashBets.filter (·.roundId == r)⟩
      some { s with recoveries := Function.update s.recoveries k (some rc) }
  | _, _ => none

/-- One attempt; the rows are those read before. -/
def stepRecover (k : Nat) (env : SettleEnv) (failAt : Option (Nat × TxError)) : Option State :=
  match s.recoveries k with
  | none => none
  | some rc =>
      match (Tx.transact (recoverTx cfg.deps env rc.round rc.bets) () s.db failAt).2 with
      | .ok (_, db') => some { s with
          db := db'
          recoveries := Function.update s.recoveries k none
          terminals := ⟨rc.round.id, s.held⟩ :: s.terminals }
      | .error _ => some s

/-- What process `i` had in memory is gone. -/
def stepKill (i : Inst) : State where
  db := s.db
  held p := if p.inst = i then none else s.held p
  draining := Function.update s.draining i false
  calls c := (s.calls c).map fun p => if p.inst = i then { p with alive := false } else p
  writes := s.writes.filter (·.1 != i)
  cashOuts := s.cashOuts.filter (·.inst != i)
  settles k := (s.settles k).filter (·.inst != i)
  recoveries k := (s.recoveries k).filter (·.inst != i)
  terminals := s.terminals

def step : Event → Option State
  | .create i k created openedAt beaconRound => stepCreate s i k created openedAt beaconRound
  | .install i k => stepInstall s i k
  | .abandon i k => some (s.setHeld (.opening i k) none)
  | .begin c i call => stepBegin s c i call
  | .commit c failAt => stepCommit s c failAt
  | .decide c => stepDecide cfg s c
  | .refund c failAt => stepRefund s c failAt
  | .deleteRow c deleted => stepDeleteRow s c deleted
  | .dropKey c => stepDropKey s c
  | .creditReferrer c failAt => stepCreditReferrer cfg s c failAt
  | .storeKey c => stepStoreKey s c
  | .closeBets i => stepRound s i (fun _ => true) fun r => { r with betsClosed := true }
  | .fly i => stepFly s i
  | .writeRunning i r written => stepWriteRunning s i r written
  | .cashOut i userId portion payout m => stepCashOut s i userId portion payout m
  | .persistCashOut co written => stepPersistCashOut s co written
  | .bust i k => stepBust s i k
  | .settle k env entropy failAt => stepSettle cfg s k env entropy failAt
  | .giveUp k => some { s with settles := Function.update s.settles k none }
  | .readBets k i r => stepReadBets s k i r
  | .recover k env failAt => stepRecover cfg s k env failAt
  | .skip k => some { s with recoveries := Function.update s.recoveries k none }
  | .drain i => some { s with draining := Function.update s.draining i true }
  | .kill i => some (stepKill s i)

end Steps

/-! ## What a step did -/

section Inversion

variable {cfg : Config} {s s' : State} {c : EntryId} {i : Inst} {k : Nat}
variable {failAt : Option (Nat × TxError)}

/-- A write that the accounting of the stakes does not see. -/
structure Aside (db db' : Db) : Prop where
  rounds : db'.crashRounds = db.crashRounds
  rows : db'.crashBets = db.crashBets
  bets : db'.bets = db.bets
  ledger : db'.ledger = db.ledger

theorem at_eq_some {phase : BetPhase} {p : Placing} (h : s.at_ c phase = some p) :
    s.calls c = some p ∧ p.alive = true ∧ p.phase = phase := by
  simpa [State.at_, Option.filter_eq_some_iff] using h

theorem create_ok {created : Created} {openedAt : Time} {beaconRound : Option Int}
    (h : stepCreate s i k created openedAt beaconRound = some s') :
    s.db.crashRounds created.id = none ∧ s.held (.opening i k) = none ∧
      s' = { s.setHeld (.opening i k) (some (created.round openedAt beaconRound)) with
        db := createRound created beaconRound s.db } := by
  unfold stepCreate at h
  split at h
  · rename_i hfresh
    cases h
    exact ⟨hfresh.1, hfresh.2.2, rfl⟩
  · cases h

theorem install_ok (h : stepInstall s i k = some s') :
    ∃ round, s.held (.opening i k) = some round ∧
      s' = (s.setHeld (.opening i k) none).setHeld (.engine i) (some round) := by
  unfold stepInstall at h
  split at h
  · cases h
  · rename_i round hheld
    cases h
    exact ⟨round, hheld, rfl⟩

theorem begin_ok {call : BetCall} (h : stepBegin s c i call = some s') :
    s.calls c = none ∧ (∃ round, s.held (.engine i) = some round ∧ call.roundId = round.id) ∧
      s' = s.setCall c ⟨i, call, .captured, true⟩ := by
  unfold stepBegin at h
  split at h
  · rename_i round hnone hheld
    split at h
    · rename_i hid
      cases h
      exact ⟨hnone, ⟨round, hheld, hid⟩, rfl⟩
    · cases h
  · cases h

/-- The call is debited, or over. -/
theorem commit_ok (h : stepCommit s c failAt = some s') :
    ∃ p, s.calls c = some p ∧ p.alive = true ∧ p.phase = .captured ∧
      (s' = s.move c p .ended ∨
        ∃ db', Debited p.call c s.db db' ∧ s' = { s.move c p .committed with db := db' }) := by
  unfold stepCommit at h
  split at h
  · cases h
  · rename_i p hat
    obtain ⟨hcall, halive, hphase⟩ := at_eq_some hat
    refine ⟨p, hcall, halive, hphase, ?_⟩
    split at h
    · rename_i db' hcommit
      cases h
      obtain ⟨t, hrun, rfl⟩ := Tx.transact_snd_ok hcommit
      rcases betTx_ok hrun with ⟨response, hreplayed, -⟩ | ⟨-, hdebited⟩
      · cases hreplayed
      · exact .inr ⟨t.db, hdebited, rfl⟩
    · rename_i response db' hcommit
      cases h
      obtain ⟨t, hrun, rfl⟩ := Tx.transact_snd_ok hcommit
      rcases betTx_ok hrun with ⟨-, -, hsame⟩ | ⟨hdebited, -⟩
      · rw [hsame]
        exact .inl rfl
      · cases hdebited
    · cases h
      exact .inl rfl

/-- The engine took the bet into its current round, or refused it. -/
theorem decide_ok (h : stepDecide cfg s c = some s') :
    ∃ p round, s.calls c = some p ∧ p.alive = true ∧ p.phase = .committed ∧
      s.held (.engine p.inst) = some round ∧
      (s' = s.move c p .rejected ∨
        ∃ round', placeBet cfg.chainEnabled (s.draining p.inst) round p.call.params = .ok round' ∧
          s' = (s.setHeld (.engine p.inst) (some round')).move c p .accepted) := by
  unfold stepDecide at h
  split at h
  · cases h
  · rename_i p hat
    obtain ⟨hcall, halive, hphase⟩ := at_eq_some hat
    split at h
    · cases h
    · rename_i round hheld
      refine ⟨p, round, hcall, halive, hphase, hheld, ?_⟩
      split at h
      · rename_i round' hplace
        cases h
        exact .inr ⟨round', hplace, rfl⟩
      · cases h
        exact .inl rfl

theorem refund_ok (h : stepRefund s c failAt = some s') :
    ∃ p, s.calls c = some p ∧ p.alive = true ∧ p.phase = .rejected ∧
      (s' = s.move c p .unpaid ∨
        ∃ db', crashTables db' = crashTables s.db ∧
          Posts [p.call.refund.posting p.call.userId p.call.amountLamports] s.db db' ∧
          s' = { s.move c p .refunded with db := db' }) := by
  unfold stepRefund at h
  split at h
  · cases h
  · rename_i p hat
    obtain ⟨hcall, halive, hphase⟩ := at_eq_some hat
    refine ⟨p, hcall, halive, hphase, ?_⟩
    split at h
    · rename_i a db' hcommit
      cases h
      obtain ⟨t, hrun, rfl⟩ := Tx.transact_snd_ok hcommit
      obtain ⟨htables, hposts⟩ := refundTx_ok hrun
      exact .inr ⟨t.db, htables, hposts, rfl⟩
    · cases h
      exact .inl rfl

theorem deleteRow_ok {deleted : Bool} (h : stepDeleteRow s c deleted = some s') :
    ∃ p, s.calls c = some p ∧ p.alive = true ∧ p.phase = .refunded ∧
      s' = { s.move c p .done with
        db := if deleted then deleteManyCrashBet p.call.roundId p.call.userId s.db else s.db } := by
  unfold stepDeleteRow at h
  split at h
  · cases h
  · rename_i p hat
    obtain ⟨hcall, halive, hphase⟩ := at_eq_some hat
    cases h
    exact ⟨p, hcall, halive, hphase, rfl⟩

theorem dropKey_ok (h : stepDropKey s c = some s') :
    ∃ db', Aside s.db db' ∧ s' = { s with db := db' } := by
  simp only [stepDropKey, Option.map_eq_some_iff] at h
  obtain ⟨p, -, rfl⟩ := h
  refine ⟨_, ?_, rfl⟩
  exact ⟨rfl, rfl, rfl, rfl⟩

/-- The tables of `Aside`. -/
def stakeTables (db : Db) := (db.crashRounds, db.crashBets, db.bets, db.ledger)

theorem Aside.of_tables {db db' : Db} (h : stakeTables db' = stakeTables db) : Aside db db' := by
  simp only [stakeTables, Prod.mk.injEq] at h
  exact ⟨h.1, h.2.1, h.2.2.1, h.2.2.2⟩

theorem creditReferrer_ok (h : stepCreditReferrer cfg s c failAt = some s') :
    ∃ db', Aside s.db db' ∧ s' = { s with db := db' } := by
  simp only [stepCreditReferrer, Option.map_eq_some_iff] at h
  obtain ⟨p, -, rfl⟩ := h
  refine ⟨_, .of_tables ?_, rfl⟩
  exact Tx.Keeps.dbAfter (p := stakeTables) (creditReferral_keeps (fun _ _ => rfl) _ _ _ _) _ _ _

theorem storeKey_ok (h : stepStoreKey s c = some s') :
    ∃ db', Aside s.db db' ∧ s' = { s with db := db' } := by
  simp only [stepStoreKey, Option.map_eq_some_iff] at h
  obtain ⟨p, -, rfl⟩ := h
  refine ⟨_, .of_tables ?_, rfl⟩
  exact Tx.Keeps.dbAfter (p := stakeTables) (storeIdempotency_keeps (fun _ _ => rfl) _ _ _ _) _ _ _

theorem round_ok {guard : Round → Bool} {f : Round → Round}
    (h : stepRound s i guard f = some s') :
    ∃ round, s.held (.engine i) = some round ∧ guard round = true ∧
      s' = s.setHeld (.engine i) (some (f round)) := by
  unfold stepRound at h
  split at h
  · cases h
  · rename_i round hheld
    split at h
    · rename_i hguard
      cases h
      exact ⟨round, hheld, hguard, rfl⟩
    · cases h

theorem fly_ok (h : stepFly s i = some s') :
    ∃ round, s.held (.engine i) = some round ∧
      s' = { s.setHeld (.engine i) (some { round with phase := .running }) with
        writes := (i, round.id) :: s.writes } := by
  unfold stepFly at h
  split at h
  · cases h
  · rename_i round hheld
    split at h
    · cases h
      exact ⟨round, hheld, rfl⟩
    · cases h

theorem writeRunning_ok {r : RoundId} {written : Bool}
    (h : stepWriteRunning s i r written = some s') :
    s' = { s with
      writes := s.writes.erase (i, r)
      db := if written then writeRunning r s.db else s.db } := by
  unfold stepWriteRunning at h
  split at h
  · cases h
    rfl
  · cases h

theorem stepCashOut_ok {userId : UserId} {portion payout : Nat} {m : Rat}
    (h : stepCashOut s i userId portion payout m = some s') :
    ∃ round cashOuts, s.held (.engine i) = some round ∧
      s' = { s.setHeld (.engine i) (some (round.cashOut userId portion payout m)) with
        cashOuts := cashOuts } := by
  unfold stepCashOut at h
  split at h
  · cases h
  · rename_i round hheld
    split at h
    · cases h
    · split at h
      · cases h
        exact ⟨round, _, hheld, rfl⟩
      · cases h

theorem persistCashOut_ok {co : CashOut} {written : Bool}
    (h : stepPersistCashOut s co written = some s') :
    s' = { s with
      cashOuts := s.cashOuts.erase co
      db := if written then persistCashOut co s.db else s.db } := by
  unfold stepPersistCashOut at h
  split at h
  · cases h
    rfl
  · cases h

theorem bust_ok (h : stepBust s i k = some s') :
    ∃ round, s.held (.engine i) = some round ∧ round.phase = .running ∧ s.settles k = none ∧
      s' = { s.setHeld (.engine i) (some { round with phase := .busted }) with
        settles := Function.update s.settles k (some ⟨i, round.id, round.bets⟩) } := by
  unfold stepBust at h
  split at h
  · rename_i round hheld hnone
    split at h
    · rename_i hrunning
      cases h
      exact ⟨round, hheld, hrunning.1, hnone, rfl⟩
    · cases h
  · cases h

/-- A committed attempt settled the captured bets on the current round. -/
theorem settle_ok {env : SettleEnv} {entropy : Option Bytes32}
    (h : stepSettle cfg s k env entropy failAt = some s') :
    s' = s ∨ ∃ st current t, s.settles k = some st ∧ s.held (.engine st.inst) = some current ∧
      (settleTx cfg.deps env current entropy st.bets).run ⟨(), s.db, failAt⟩ = .ok () t ∧
      s' = { s with
        db := t.db
        settles := Function.update s.settles k none
        terminals := ⟨current.id, s.held⟩ :: s.terminals } := by
  unfold stepSettle at h
  split at h
  · cases h
  · rename_i st hst
    split at h
    · cases h
    · rename_i current hheld
      split at h
      · rename_i u db' hcommit
        cases h
        obtain ⟨t, hrun, rfl⟩ := Tx.transact_snd_ok hcommit
        exact .inr ⟨st, current, t, hst, hheld, hrun, rfl⟩
      · cases h
        exact .inl rfl

theorem readBets_ok {r : RoundId} (h : stepReadBets s k i r = some s') :
    ∃ row, s.db.crashRounds r = some row ∧ s' = { s with
      recoveries := Function.update s.recoveries k
        (some ⟨i, ⟨r, row.seedId⟩, s.db.crashBets.filter (·.roundId == r)⟩) } := by
  unfold stepReadBets at h
  split at h
  · rename_i row hnone hrow
    cases h
    exact ⟨row, hrow, rfl⟩
  · cases h

theorem recover_ok {env : SettleEnv} (h : stepRecover cfg s k env failAt = some s') :
    s' = s ∨ ∃ rc t, s.recoveries k = some rc ∧
      (recoverTx cfg.deps env rc.round rc.bets).run ⟨(), s.db, failAt⟩ = .ok () t ∧
      s' = { s with
        db := t.db
        recoveries := Function.update s.recoveries k none
        terminals := ⟨rc.round.id, s.held⟩ :: s.terminals } := by
  unfold stepRecover at h
  split at h
  · cases h
  · rename_i rc hrc
    split at h
    · rename_i u db' hcommit
      cases h
      obtain ⟨t, hrun, rfl⟩ := Tx.transact_snd_ok hcommit
      exact .inr ⟨rc, t, hrc, hrun, rfl⟩
    · cases h
      exact .inl rfl

end Inversion

/-! ## A late bet -/

namespace Sample

def deps : Deps where
  sha := ⟨fun _ => 0, fun _ _ => 0⟩
  economyEnforced := false
  publicPlayerId u := s!"player{u}"
  referralCommission _ _ _ := 0
  scadBaseToLamports scadBase := scadBase
  periodKeys _ := ("day", "week")

def cfg : Config := ⟨deps, false⟩

def ada : User where
  username := some "ada"
  walletAddress := "wallet-7"
  banned := false
  fundedAt := some 1
  referredById := none
  signupIpHash := none
  balance _ := 1000000000
  totalWagered := 0
  totalWon := 0
  totalLost := 0
  biggestWin := 0
  gamesPlayed := 0

/-- One user, no round yet. -/
def db : Db := { Db.empty with users := fun u => if u = 7 then some ada else none }

def created : Created where
  id := 1
  seedId := 1
  serverSeed := "crash-seed"
  serverSeedHash := "crash-commit"
  clientSeed := "crash-client"
  bustPoint := 2
  exposure := none

def call : BetCall where
  roundId := 1
  userId := 7
  username := some "ada"
  walletAddress := "wallet-7"
  amountLamports := 5000000
  autoCashout := none
  key := none
  inRange := by decide

def leader : SettleEnv where
  isLeader := true
  now := 90000
  randomUUID i := 100 + i
  crashBetId i := 200 + i

/-- Process 0 opens a round; a call captures its id. -/
def opened : List Event :=
  [.create 0 0 created 0 none, .install 0 0, .begin 5 0 call]

/-- The window closes, the round flies and goes bust. -/
def flown : List Event := [.closeBets 0, .fly 0, .writeRunning 0 1 true, .bust 0 0]

/-- The round is settled while the transaction of the call is open. -/
def settled : List Event := opened ++ flown ++ [.settle 0 leader none none]

end Sample

end Scadium.Games.Crash
