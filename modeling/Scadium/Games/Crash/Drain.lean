/-
Scadium.Games.Crash.Drain — scheduled crash bets, and the loop of `startNewRound`
that drains them (`crash.engine.ts`, `crash.service.ts`).

A scheduled stake is debited with its `ScheduledCrashBet` row and then queued in
memory; the loop places each queued bet in memory, and binds it in a transaction
that creates its `CrashBet` row and deletes the scheduled row of its user. A step
is what runs between two awaits, or one transaction. Immediate bets, cancels and
the recovery of a stopping or starting process come in between, and so may another
loop, when the watchdog has opened a round over a loop that hangs.

A stake carries the number of its request. Why the engine refuses a bet, other
than that its user has one, is the environment's choice, as is whether a
transaction fails. A loop may also wait before its first entry, where the code does
not. What becomes of a round after betting is left out.
`debits`, `refunds` and `accepted` record what has happened; no step reads them.
-/
import Scadium.Lib.Runs
import Scadium.Lib.Table

namespace Scadium.Games.Crash.Drain

open Scadium.Lib

abbrev UserId := Nat
abbrev RoundId := Nat

/-- A stake, by its request; it was scheduled for the next round or not. -/
structure Stake where
  request : Nat
  scheduled : Bool
  userId : UserId
  amountLamports : Nat
  deriving DecidableEq

/-- A call of the service between two awaits. -/
inductive Call where
  /-- debited, with its row; the engine is next -/
  | scheduling (bet : Stake)
  /-- refused by the engine -/
  | rejecting (bet : Stake)
  /-- refunded, and its row deleted; the queue is next -/
  | cancelling (userId : UserId)
  /-- an immediate bet, debited, with its row in the round it has read -/
  | placing (bet : Stake) (roundId : RoundId)
  /-- refused by the engine and refunded; its row is next -/
  | deleting (bet : Stake) (roundId : RoundId)
  deriving DecidableEq

inductive Work where
  | idle
  /-- placed; its transaction is next -/
  | binding (bet : Stake)
  /-- its transaction has failed; the `catch` is next -/
  | undoing (bet : Stake)
  deriving DecidableEq

/-- The loop of a `startNewRound`: how far it is in the queue, and what it does
with the entry it has come to. -/
structure Loop where
  passed : Nat
  work : Work
  deriving DecidableEq

structure State where
  draining : Bool
  /-- the round in memory -/
  current : Option RoundId
  betsClosed : Bool
  bets : Table UserId Stake
  /-- in the order of insertion, which is that of the numbers -/
  nextRoundBets : List (Nat × Stake)
  loops : Table Nat Loop
  calls : Table Nat Call
  crashBets : Table (RoundId × UserId) Stake
  scheduledCrashBets : Table UserId Stake
  rounds : Nat
  drawn : Nat
  debits : List Stake
  refunds : List Stake
  accepted : List (RoundId × Stake)

def State.init : State where
  draining := false
  current := none
  betsClosed := true
  bets := .empty
  nextRoundBets := []
  loops := .empty
  calls := .empty
  crashBets := .empty
  scheduledCrashBets := .empty
  rounds := 0
  drawn := 0
  debits := []
  refunds := []
  accepted := []

inductive Event where
  /-- `scheduleBet`, its transaction -/
  | schedule (userId : UserId) (amountLamports : Nat)
  | queue (call : Nat)
  | reject (call : Nat)
  /-- `cancelScheduled`, its transaction -/
  | cancel (userId : UserId)
  | unqueue (call : Nat)
  /-- `placeBet`, its transaction -/
  | placeBet (userId : UserId) (amountLamports : Nat) (roundId : RoundId)
  | enter (call : Nat) (refused : Bool)
  | deleteRow (call : Nat) (deleted : Bool)
  | startRound
  | place (loop : Nat) (refused : Bool)
  | bind (loop : Nat) (failed : Bool)
  | undo (loop : Nat)
  | finish (loop : Nat)
  | closeBets
  /-- `drain`, at a graceful stop -/
  | stop
  /-- `recoverScheduledBets`, one row of it -/
  | recover (userId : UserId)
  | kill
  deriving DecidableEq

namespace State

variable (s : State)

/-! ## The service -/

def schedule (userId : UserId) (amountLamports : Nat) : Option State :=
  if (s.scheduledCrashBets.get userId).isSome then none
  else
    let bet : Stake := ⟨s.drawn, true, userId, amountLamports⟩
    some { s with
      scheduledCrashBets := s.scheduledCrashBets.set userId bet
      calls := s.calls.set s.drawn (.scheduling bet)
      drawn := s.drawn + 1
      debits := bet :: s.debits }

/-- `this.nextRoundBets.has(userId)` -/
def queued (userId : UserId) : Bool := s.nextRoundBets.any fun e => e.2.userId == userId

/-- `engine.scheduleBet` -/
def queue (call : Nat) : Option State :=
  match s.calls.get call with
  | some (.scheduling bet) =>
      if s.draining || s.queued bet.userId then
        some { s with calls := s.calls.set call (.rejecting bet) }
      else some { s with
        calls := s.calls.erase call
        nextRoundBets := s.nextRoundBets ++ [(s.drawn, bet)]
        drawn := s.drawn + 1 }
  | _ => none

/-- The refund, with `deleteMany`. -/
def reject (call : Nat) : Option State :=
  match s.calls.get call with
  | some (.rejecting bet) => some { s with
      calls := s.calls.erase call
      scheduledCrashBets := s.scheduledCrashBets.erase bet.userId
      refunds := bet :: s.refunds }
  | _ => none

/-- The row of the user is refunded and deleted. -/
def refundRow (userId : UserId) : Option State :=
  match s.scheduledCrashBets.get userId with
  | none => none
  | some row => some { s with
      scheduledCrashBets := s.scheduledCrashBets.erase userId
      refunds := row :: s.refunds }

def cancel (userId : UserId) : Option State :=
  (s.refundRow userId).map fun s => { s with
    calls := s.calls.set s.drawn (.cancelling userId), drawn := s.drawn + 1 }

/-- `engine.cancelScheduled` -/
def unqueue (call : Nat) : Option State :=
  match s.calls.get call with
  | some (.cancelling userId) => some { s with
      calls := s.calls.erase call
      nextRoundBets := s.nextRoundBets.filter fun e => e.2.userId != userId }
  | _ => none

def placeBet (userId : UserId) (amountLamports : Nat) (roundId : RoundId) : Option State :=
  if s.rounds < roundId || (s.crashBets.get (roundId, userId)).isSome then none
  else
    let bet : Stake := ⟨s.drawn, false, userId, amountLamports⟩
    some { s with
      crashBets := s.crashBets.set (roundId, userId) bet
      calls := s.calls.set s.drawn (.placing bet roundId)
      drawn := s.drawn + 1 }

/-- Whether `engine.placeBet` takes a bet. -/
def takes (userId : UserId) (refused : Bool) : Bool :=
  !s.draining && s.current.isSome && !s.betsClosed && (s.bets.get userId).isNone && !refused

/-- `engine.placeBet`, for an immediate bet -/
def enter (call : Nat) (refused : Bool) : Option State :=
  match s.calls.get call with
  | some (.placing bet roundId) =>
      if s.takes bet.userId (refused || s.current != some roundId) then
        some { s with
          calls := s.calls.erase call
          bets := s.bets.set bet.userId bet
          accepted := (roundId, bet) :: s.accepted }
      else some { s with calls := s.calls.set call (.deleting bet roundId) }
  | _ => none

/-- `deleteMany`, best effort -/
def deleteRow (call : Nat) (deleted : Bool) : Option State :=
  match s.calls.get call with
  | some (.deleting bet roundId) => some { s with
      calls := s.calls.erase call
      crashBets := if deleted then s.crashBets.erase (roundId, bet.userId) else s.crashBets }
  | _ => none

/-! ## The engine -/

/-- A round is installed, and its loop starts. -/
def startRound : Option State :=
  if s.draining then none
  else some { s with
    current := some (s.rounds + 1)
    betsClosed := false
    bets := .empty
    rounds := s.rounds + 1
    loops := s.loops.set s.drawn ⟨0, .idle⟩
    drawn := s.drawn + 1 }

/-- The next entry of a loop over the map. -/
def next (passed : Nat) : Option (Nat × Stake) := s.nextRoundBets.find? fun e => passed ≤ e.1

/-- `this.placeBet(queued)`; refused, the `catch` follows at once. -/
def place (loop : Nat) (refused : Bool) : Option State :=
  match s.loops.get loop with
  | some ⟨passed, .idle⟩ =>
      match s.next passed with
      | none => none
      | some (n, bet) =>
          if s.takes bet.userId refused then
            some { s with
              bets := s.bets.set bet.userId bet
              loops := s.loops.set loop ⟨n + 1, .binding bet⟩ }
          else some { s with
            bets := s.bets.erase bet.userId
            loops := s.loops.set loop ⟨n + 1, .idle⟩ }
  | _ => none

/-- Whether the transaction of the loop commits. -/
def commits (roundId : RoundId) (bet : Stake) (failed : Bool) : Bool :=
  !failed && (s.crashBets.get (roundId, bet.userId)).isNone &&
    (s.scheduledCrashBets.get bet.userId).isSome

/-- `crashBet.create` and `scheduledCrashBet.delete`, in one transaction -/
def bind (loop : Nat) (failed : Bool) : Option State :=
  match s.loops.get loop, s.current with
  | some ⟨passed, .binding bet⟩, some roundId =>
      if s.commits roundId bet failed then
        some { s with
          crashBets := s.crashBets.set (roundId, bet.userId) bet
          scheduledCrashBets := s.scheduledCrashBets.erase bet.userId
          loops := s.loops.set loop ⟨passed, .idle⟩
          accepted := (roundId, bet) :: s.accepted }
      else some { s with loops := s.loops.set loop ⟨passed, .undoing bet⟩ }
  | _, _ => none

/-- `this.current.bets.delete(queued.userId)` -/
def undo (loop : Nat) : Option State :=
  match s.loops.get loop with
  | some ⟨passed, .undoing bet⟩ => some { s with
      bets := s.bets.erase bet.userId
      loops := s.loops.set loop ⟨passed, .idle⟩ }
  | _ => none

def finish (loop : Nat) : Option State :=
  match s.loops.get loop with
  | some ⟨passed, .idle⟩ =>
      if (s.next passed).isSome then none
      else some { s with loops := s.loops.erase loop, nextRoundBets := [] }
  | _ => none

end State

def step (s : State) : Event → Option State
  | .schedule userId amountLamports => s.schedule userId amountLamports
  | .queue call => s.queue call
  | .reject call => s.reject call
  | .cancel userId => s.cancel userId
  | .unqueue call => s.unqueue call
  | .placeBet userId amountLamports roundId => s.placeBet userId amountLamports roundId
  | .enter call refused => s.enter call refused
  | .deleteRow call deleted => s.deleteRow call deleted
  | .startRound => s.startRound
  | .place loop refused => s.place loop refused
  | .bind loop failed => s.bind loop failed
  | .undo loop => s.undo loop
  | .finish loop => s.finish loop
  | .closeBets => some { s with betsClosed := true }
  | .stop => some { s with draining := true, nextRoundBets := [] }
  | .recover userId => s.refundRow userId
  | .kill => some { s with
      draining := false
      current := none
      betsClosed := true
      bets := .empty
      nextRoundBets := []
      loops := .empty
      calls := .empty }

end Scadium.Games.Crash.Drain
