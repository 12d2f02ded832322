/-
Scadium.Games.Blackjack.System — a blackjack table as a system: the table in
memory, the rows of its rounds, and the calls and hands in flight
(`blackjack.engine.ts`, `blackjack.service.ts`).

A step is what runs between two awaits, or one committed or failed statement;
the steps of all the calls interleave freely, and `kill` stops the process
between any two of them. A call keeps its slot when it is over. The cards of
a deal are dealt in one step: nothing that reads a hand is let in between.

`window` counts the openings begun, and `installed` says that the round of the
current one is on the table; with the windows noted in the rows and in the
writes they say which bets belong to which round. No step of the engine reads
them, or the ledger.
-/
import Scadium.Games.Blackjack.Table
import Scadium.Lib.Runs

namespace Scadium.Games.Blackjack

open Scadium.Common (ExposureGuard)
open Scadium.Lib Scadium.Prisma Scadium.Shared

/-! ## State -/

/-- A write of `stateJson`, as captured when it is issued, and the window of
the bets in it. -/
structure Write where
  roundDbId : RoundId
  stateJson : StateJson
  window : Nat
  deriving DecidableEq

/-- A row of `BlackjackRound`, the window it was created for, and the window
of the bets that `stateJson` shows. -/
structure RoundRow where
  id : RoundId
  stateJson : StateJson
  ended : Bool
  window : Nat
  source : Option Nat
  deriving DecidableEq

/-- The awaits of `openBetting`. -/
inductive Opening where
  | creating
  | bankroll (roundDbId : RoundId) (seed : RoundSeed)
  | entropy
  | tableUpdate
  deriving DecidableEq

/-- How far `placeBet` of the service has come. -/
inductive PlaceStage where
  /-- Checked; the debit has not committed. -/
  | captured
  /-- Debited; the engine has not been called. -/
  | debited
  | opening (window previousTotal : Nat) (stage : Opening)
  | saving (w : Write) (previousTotal : Nat) (opens : Bool)
  /-- The credit of the bet that was replaced. -/
  | owing (previousTotal : Nat)
  /-- The engine threw; the credit of the whole bet. -/
  | failed
  deriving DecidableEq

/-- A `double`: its extra stake is what the snapshot showed. -/
inductive DoubleStage where
  | captured
  | debited
  | saving (w : Write) (seatIndex : Nat)
  | failed
  deriving DecidableEq

inductive DealStage where
  | saving (w : Write)
  | cards
  | tableUpdate
  deriving DecidableEq

/-- What is in flight. -/
inductive Proc where
  | placing (userId : UserId) (bet : SeatBet) (stage : PlaceStage)
  /-- `clearBet` or `leaveSeat`, on its way to the refund. -/
  | returning (userId : UserId) (refund : Nat) (saving : Option Write)
  | doubling (userId : UserId) (extra : Nat) (stage : DoubleStage)
  | dealing (stage : DealStage)
  /-- The dealer's turn: the table row is written, or the dealer plays. -/
  | dealer (playing : Bool)
  | settling (window : Nat) (data : List SeatData) (stateJson : StateJson)
  | recovering (roundDbId : RoundId) (refunds : List (UserId × Nat))
  | done
  deriving DecidableEq

/-- A committed movement of a balance, and the stake a settlement pays on. -/
inductive Movement where
  | bet (userId : UserId) (amount : Nat)
  | refund (userId : UserId) (amount : Nat)
  | recovered (userId : UserId) (amount : Nat)
  | settled (d : SeatData)
  deriving DecidableEq

structure State where
  table : Table
  window : Nat
  installed : Bool
  rows : List RoundRow
  procs : List Proc
  ledger : List Movement
  deriving DecidableEq

/-- A fresh table, and no round yet. -/
def State.init (isPrivate : Bool) (ownerId : Option UserId) : State where
  table := createTable isPrivate ownerId
  window := 0
  installed := false
  rows := []
  procs := []
  ledger := []

structure Config where
  chainEnabled : Bool
  onchainLive : Bool
  stream : CardStream

/-! ## Pieces of a step -/

section Pieces

variable (s : State)

def State.setProc (i : Nat) (p : Proc) : State := { s with procs := s.procs.set i p }

def State.spawn (p : Proc) : State := { s with procs := s.procs ++ [p] }

def State.record (ms : List Movement) : State := { s with ledger := s.ledger ++ ms }

def State.setTable (t : Table) : State := { s with table := t }

/-- The table after a turn, and the dealer if it is the dealer's. -/
def State.turned (r : Table × Bool) : State :=
  if r.2 then (s.setTable r.1).spawn (.dealer false) else s.setTable r.1

/-- The write of the table's stakes, when there is a row. -/
def State.captureStakes : Option Write :=
  s.table.bettingStakes.map fun p => ⟨p.1, p.2, s.window⟩

/-- The write of the whole snapshot. -/
def State.captureSnapshot : Option Write :=
  s.table.roundDbId.map fun roundDbId => ⟨roundDbId, .snapshot s.table.snapshot, s.window⟩

section Fields

variable {s} {i : Nat} {p : Proc} {ms : List Movement} {t : Table}

@[simp] theorem setProc_table : (s.setProc i p).table = s.table := rfl
@[simp] theorem setProc_procs : (s.setProc i p).procs = s.procs.set i p := rfl
@[simp] theorem setProc_ledger : (s.setProc i p).ledger = s.ledger := rfl

@[simp] theorem spawn_table : (s.spawn p).table = s.table := rfl
@[simp] theorem spawn_procs : (s.spawn p).procs = s.procs ++ [p] := rfl

@[simp] theorem record_table : (s.record ms).table = s.table := rfl
@[simp] theorem record_procs : (s.record ms).procs = s.procs := rfl
@[simp] theorem record_ledger : (s.record ms).ledger = s.ledger ++ ms := rfl

@[simp] theorem setTable_table : (s.setTable t).table = t := rfl
@[simp] theorem setTable_procs : (s.setTable t).procs = s.procs := rfl

variable {r : Table × Bool}

@[simp] theorem turned_table : (s.turned r).table = r.1 := by
  unfold State.turned
  split
  · rfl
  · rfl

@[simp] theorem turned_window : (s.turned r).window = s.window := by
  unfold State.turned
  split
  · rfl
  · rfl

@[simp] theorem turned_installed : (s.turned r).installed = s.installed := by
  unfold State.turned
  split
  · rfl
  · rfl

@[simp] theorem turned_rows : (s.turned r).rows = s.rows := by
  unfold State.turned
  split
  · rfl
  · rfl

@[simp] theorem turned_ledger : (s.turned r).ledger = s.ledger := by
  unfold State.turned
  split
  · rfl
  · rfl

theorem turned_procs :
    (s.turned r).procs = if r.2 then s.procs ++ [.dealer false] else s.procs := by
  unfold State.turned
  split
  · rfl
  · rfl

end Fields

/-- `blackjackRound.update`: no condition on the row. -/
def Write.commit (w : Write) (rows : List RoundRow) : List RoundRow :=
  rows.map fun r =>
    if r.id = w.roundDbId then
      { r with
        stateJson := w.stateJson
        source := some w.window }
    else r

def State.commit (w : Write) : State := { s with rows := w.commit s.rows }

@[simp] theorem commit_table (w : Write) : (s.commit w).table = s.table := rfl
@[simp] theorem commit_procs (w : Write) : (s.commit w).procs = s.procs := rfl
@[simp] theorem commit_ledger (w : Write) : (s.commit w).ledger = s.ledger := rfl

/-- The row is there and has not ended. -/
def isOpenRow (roundDbId : RoundId) (rows : List RoundRow) : Bool :=
  rows.any fun r => r.id == roundDbId && !r.ended

/-- The claim of a round, with what the settle writes along. -/
def endRow (roundDbId : RoundId) (data : RoundRow → RoundRow) (rows : List RoundRow) :
    List RoundRow :=
  rows.map fun r => if r.id = roundDbId ∧ r.ended = false then { data r with ended := true } else r

/-- The end of the engine's `placeBet`: a bet that was replaced is due. -/
def PlaceStage.after (userId : UserId) (bet : SeatBet) (previousTotal : Nat) : Proc :=
  if 0 < previousTotal then .placing userId bet (.owing previousTotal) else .done

/-- The same for `clearBet` and `leaveSeat`. -/
def State.returnBet (userId : UserId) (refund : Nat) : State :=
  s.spawn (.returning userId refund s.captureStakes)

end Pieces

/-! ## The calls -/

section Calls

variable (cfg : Config) (s : State)

/-- What the service asks of a bet. -/
def SeatBet.inRange (bet : SeatBet) : Prop :=
  BLACKJACK.MIN_BET_LAMPORTS ≤ bet.mainLamports ∧ bet.mainLamports ≤ BLACKJACK.MAX_BET_LAMPORTS ∧
    bet.side21p3Lamports ≤ BLACKJACK.MAX_BET_LAMPORTS ∧
    bet.sidePerfectPairsLamports ≤ BLACKJACK.MAX_BET_LAMPORTS

instance (bet : SeatBet) : Decidable bet.inRange := by
  unfold SeatBet.inRange
  infer_instance

/-- `placeBet` of the service, up to the debit. -/
def stepPlace (userId : UserId) (bet : SeatBet) : Option State :=
  if bet.inRange then some (s.spawn (.placing userId bet .captured)) else none

/-- `action` with `double`, up to the debit: the extra stake is the main bet
that the snapshot shows. -/
def stepDouble (userId : UserId) : Option State :=
  match (s.table.seatOf userId).bind (·.bet) with
  | none => none
  | some bet => some (s.spawn (.doubling userId bet.mainLamports .captured))

/-- `action` with `hit` or `stand`. -/
def stepAct (userId : UserId) (a : Action) : Option State :=
  if a = .double then none
  else
    match action cfg.stream s.table userId a with
    | (t', .error _) => some (s.setTable t')
    | (t', .ok seatIndex) => some (s.turned (afterAction t' seatIndex))

def stepTakeSeat (seatIndex : Nat) (userId : UserId) : Option State :=
  some (s.setTable (takeSeat s.table seatIndex userId).1)

def stepLeave (userId : UserId) : Option State :=
  match leaveSeat s.table userId with
  | (t', .error _) => some (s.setTable t')
  | (t', .ok left) =>
      if left.wasBetting then some ((s.setTable t').returnBet userId left.refundLamports)
      else some (s.setTable t')

def stepClear (userId : UserId) : Option State :=
  match clearBet s.table userId with
  | (t', .error _) => some (s.setTable t')
  | (t', .ok refund) => some ((s.setTable t').returnBet userId refund)

/-- The debit of a bet or of a double commits. -/
def stepDebit (i : Nat) : Option State :=
  match s.procs[i]? with
  | some (.placing userId bet .captured) =>
      some ((s.setProc i (.placing userId bet .debited)).record [.bet userId bet.betTotal])
  | some (.doubling userId extra .captured) =>
      some ((s.setProc i (.doubling userId extra .debited)).record [.bet userId extra])
  | _ => none

/-- It is refused: the balance is too low, or the player may not wager. -/
def stepReject (i : Nat) : Option State :=
  match s.procs[i]? with
  | some (.placing _ _ .captured) => some (s.setProc i .done)
  | some (.doubling _ _ .captured) => some (s.setProc i .done)
  | _ => none

/-- The engine's `placeBet` up to its await. -/
def callPlace (i : Nat) (userId : UserId) (bet : SeatBet) : State :=
  match placeBet cfg.chainEnabled s.table userId bet with
  | (t', .error _) => (s.setTable t').setProc i (.placing userId bet .failed)
  | (t', .ok placed) =>
      if placed.opens then
        { s with
          table := t'.openPrologue
          window := s.window + 1
          installed := false
          procs := s.procs.set i (.placing userId bet
            (.opening (s.window + 1) placed.previousTotalLamports .creating)) }
      else
        match (s.setTable t').captureStakes with
        | some w => (s.setTable t').setProc i
            (.placing userId bet (.saving w placed.previousTotalLamports false))
        | none => (s.setTable t').setProc i
            (PlaceStage.after userId bet placed.previousTotalLamports)

/-- The engine's `action` with `double` up to its await. -/
def callDouble (i : Nat) (userId : UserId) (extra : Nat) : State :=
  match action cfg.stream s.table userId .double with
  | (t', .error _) => (s.setTable t').setProc i (.doubling userId extra .failed)
  | (t', .ok seatIndex) =>
      match (s.setTable t').captureSnapshot with
      | some w => (s.setTable t').setProc i (.doubling userId extra (.saving w seatIndex))
      | none => (s.setProc i .done).turned (afterAction t' seatIndex)

def stepCall (i : Nat) : Option State :=
  match s.procs[i]? with
  | some (.placing userId bet .debited) => some (callPlace cfg s i userId bet)
  | some (.doubling userId extra .debited) => some (callDouble cfg s i userId extra)
  | _ => none

/-- The credit of a refund commits. -/
def stepCredit (i : Nat) : Option State :=
  match s.procs[i]? with
  | some (.placing userId _ (.owing previousTotal)) =>
      some ((s.setProc i .done).record [.refund userId previousTotal])
  | some (.placing userId bet .failed) =>
      some ((s.setProc i .done).record [.refund userId bet.betTotal])
  | some (.returning userId refund none) =>
      some ((s.setProc i .done).record [.refund userId refund])
  | some (.doubling userId extra .failed) =>
      some ((s.setProc i .done).record [.refund userId extra])
  | _ => none

end Calls

/-! ## Opening a window -/

section Openings

variable (cfg : Config) (s : State)

/-- The synchronous end of the opening's middle part. -/
def State.install (i : Nat) (userId : UserId) (bet : SeatBet) (window previousTotal : Nat)
    (roundDbId : RoundId) (seed : RoundSeed) (guard : Option ExposureGuard) : State :=
  { s with
    table := s.table.installRound roundDbId seed guard
    installed := window == s.window
    procs := s.procs.set i (.placing userId bet (.opening window previousTotal
      (if cfg.onchainLive then .entropy else .tableUpdate))) }

/-- The seed and the row of the round are created. -/
def stepCreated (i : Nat) (roundDbId : RoundId) (seed : RoundSeed) : Option State :=
  match s.procs[i]? with
  | some (.placing userId bet (.opening window previousTotal .creating)) =>
      if s.rows.any (·.id == roundDbId) then none
      else
        let created : State := { s with
          rows := s.rows ++ [⟨roundDbId, .empty, false, window, none⟩]
          table := { s.table with exposure := none } }
        if cfg.chainEnabled then
          some (created.setProc i
            (.placing userId bet (.opening window previousTotal (.bankroll roundDbId seed))))
        else some (created.install cfg i userId bet window previousTotal roundDbId seed none)
  | _ => none

/-- `houseVaultBalance` returns: what it read, or null when it is unreadable
or the chain is off. -/
def stepBankroll (i : Nat) (bankroll : Option Nat) : Option State :=
  match s.procs[i]? with
  | some (.placing userId bet (.opening window previousTotal (.bankroll roundDbId seed))) =>
      some (s.install cfg i userId bet window previousTotal roundDbId seed
        (if cfg.chainEnabled then bankroll.map ExposureGuard.forBankroll else none))
  | _ => none

def stepEntropy (i : Nat) (folded : Option String) : Option State :=
  match s.procs[i]? with
  | some (.placing userId bet (.opening window previousTotal .entropy)) =>
      some ((s.setTable (s.table.foldEntropy folded)).setProc i
        (.placing userId bet (.opening window previousTotal .tableUpdate)))
  | _ => none

end Openings

/-! ## Statements that commit -/

section Commits

variable (cfg : Config) (s : State)

/-- `blackjackTable.update` -/
def stepTableUpdated (i : Nat) : Option State :=
  match s.procs[i]? with
  | some (.placing userId bet (.opening _ previousTotal .tableUpdate)) =>
      match s.captureStakes with
      | some w => some (s.setProc i (.placing userId bet (.saving w previousTotal true)))
      | none => some ((s.setTable (s.table.setTimer .deal)).setProc i
          (PlaceStage.after userId bet previousTotal))
  | some (.dealing .tableUpdate) => some ((s.setProc i .done).turned (startPlayerTurns s.table))
  | some (.dealer false) => some ((s.setTable s.table.revealHole).setProc i (.dealer true))
  | _ => none

/-- `blackjackRound.update` with the stakes or the snapshot. -/
def stepSaved (i : Nat) : Option State :=
  match s.procs[i]? with
  | some (.placing userId bet (.saving w previousTotal opens)) =>
      let saved := (s.commit w).setProc i (PlaceStage.after userId bet previousTotal)
      some (if opens then saved.setTable (s.table.setTimer .deal) else saved)
  | some (.returning userId refund (some w)) =>
      some ((s.commit w).setProc i (.returning userId refund none))
  | some (.doubling _ _ (.saving w seatIndex)) =>
      some (((s.commit w).setProc i .done).turned (afterAction s.table seatIndex))
  | some (.dealing (.saving w)) => some ((s.commit w).setProc i (.dealing .cards))
  | _ => none

/-- The timer of the table fires. -/
def stepTimer : Option State :=
  match s.table.timer with
  | some .deal =>
      match deal { s.table with timer := none } with
      | (t', false) => some (s.setTable t')
      | (t', true) =>
          match (s.setTable t').captureSnapshot with
          | some w => some ((s.setTable t').spawn (.dealing (.saving w)))
          | none => some (s.setTable t')
  | some (.turn seatIndex) => some (s.turned (turnTimeout { s.table with timer := none } seatIndex))
  | some .settlePause => some (s.setTable (settlePause { s.table with timer := none }))
  | none => none

/-- The cards are dealt. -/
def stepDealt (i : Nat) : Option State :=
  match s.procs[i]? with
  | some (.dealing .cards) =>
      some ((s.setTable (dealCards cfg.stream s.table)).setProc i (.dealing .tableUpdate))
  | _ => none

/-- The dealer draws a card. -/
def stepDealerCard (i : Nat) : Option State :=
  match s.procs[i]? with
  | some (.dealer true) =>
      if s.table.dealerDraws then some (s.setTable (s.table.dealTo cfg.stream .dealer)) else none
  | _ => none

/-- The dealer is done: `settle`, up to its transaction. -/
def stepDealerDone (i : Nat) : Option State :=
  match s.procs[i]? with
  | some (.dealer true) =>
      if s.table.dealerDraws then none
      else
        let settled := settle s.table
        some ((s.setTable settled.1).setProc i
          (.settling s.window settled.2 (.snapshot settled.1.snapshot)))
  | _ => none

/-- The transaction of `settle` commits on the row the table holds now, or
finds it claimed. -/
def stepSettled (i : Nat) : Option State :=
  match s.procs[i]?, s.table.roundDbId with
  | some (.settling window data stateJson), some roundDbId =>
      if isOpenRow roundDbId s.rows then
        some ((({ s with
          rows := endRow roundDbId (fun r => { r with
            stateJson := stateJson
            source := some window }) s.rows
          table := s.table.setTimer .settlePause }).setProc i .done).record
            (data.map .settled))
      else some (s.setProc i .done)
  | _, _ => none

/-- It throws: this process no longer leads, or the database failed. -/
def stepAborted (i : Nat) : Option State :=
  match s.procs[i]? with
  | some (.settling _ _ _) =>
      some ((s.setTable { s.table with phase := .dealer_turn }).setProc i .done)
  | _ => none

/-- The recovery reads the row of an unfinished round. -/
def stepRecover (roundDbId : RoundId) : Option State :=
  match s.rows.find? (fun r => r.id == roundDbId && !r.ended) with
  | some row => some (s.spawn (.recovering roundDbId (parseSeatStakes row.stateJson)))
  | none => none

/-- Its transaction commits the refunds it has read, or finds the round
claimed. -/
def stepRecovered (i : Nat) : Option State :=
  match s.procs[i]? with
  | some (.recovering roundDbId refunds) =>
      if isOpenRow roundDbId s.rows then
        some (({ s with rows := endRow roundDbId id s.rows }.setProc i .done).record
          (refunds.map fun (r : UserId × Nat) => .recovered r.1 r.2))
      else some (s.setProc i .done)
  | _ => none

/-- The statement that a call waits for fails. -/
def stepFail (i : Nat) : Option State :=
  match s.procs[i]? with
  | some (.placing userId bet (.opening _ _ .creating))
  | some (.placing userId bet (.opening _ _ .tableUpdate))
  | some (.placing userId bet (.saving _ _ _))
  | some (.placing userId bet (.owing _)) => some (s.setProc i (.placing userId bet .failed))
  | some (.doubling userId extra (.saving _ _)) => some (s.setProc i (.doubling userId extra .failed))
  | some (.placing _ _ .failed)
  | some (.doubling _ _ .failed)
  | some (.returning _ _ _)
  | some (.dealing (.saving _))
  | some (.dealing .tableUpdate)
  | some (.dealer false)
  | some (.recovering _ _) => some (s.setProc i .done)
  | _ => none

/-- The process stops: the table and all that is in flight are gone. -/
def stepKill : Option State :=
  some { s with
    table := createTable s.table.isPrivate s.table.ownerId
    installed := false
    procs := s.procs.map fun _ => .done }

end Commits

/-! ## The step function -/

inductive Event where
  | takeSeat (seatIndex : Nat) (userId : UserId)
  | leave (userId : UserId)
  | place (userId : UserId) (bet : SeatBet)
  | clear (userId : UserId)
  | act (userId : UserId) (a : Action)
  | double (userId : UserId)
  | debit (i : Nat)
  | reject (i : Nat)
  | call (i : Nat)
  | credit (i : Nat)
  | created (i : Nat) (roundDbId : RoundId) (seed : RoundSeed)
  | bankroll (i : Nat) (bankroll : Option Nat)
  | entropy (i : Nat) (folded : Option String)
  | tableUpdated (i : Nat)
  | saved (i : Nat)
  | timer
  | dealt (i : Nat)
  | dealerCard (i : Nat)
  | dealerDone (i : Nat)
  | settled (i : Nat)
  | aborted (i : Nat)
  | recover (roundDbId : RoundId)
  | recovered (i : Nat)
  | fail (i : Nat)
  | kill
  deriving DecidableEq

def step (cfg : Config) (s : State) : Event → Option State
  | .takeSeat seatIndex userId => stepTakeSeat s seatIndex userId
  | .leave userId => stepLeave s userId
  | .place userId bet => stepPlace s userId bet
  | .clear userId => stepClear s userId
  | .act userId a => stepAct cfg s userId a
  | .double userId => stepDouble s userId
  | .debit i => stepDebit s i
  | .reject i => stepReject s i
  | .call i => stepCall cfg s i
  | .credit i => stepCredit s i
  | .created i roundDbId seed => stepCreated cfg s i roundDbId seed
  | .bankroll i bankroll => stepBankroll cfg s i bankroll
  | .entropy i folded => stepEntropy s i folded
  | .tableUpdated i => stepTableUpdated s i
  | .saved i => stepSaved s i
  | .timer => stepTimer s
  | .dealt i => stepDealt cfg s i
  | .dealerCard i => stepDealerCard cfg s i
  | .dealerDone i => stepDealerDone s i
  | .settled i => stepSettled s i
  | .aborted i => stepAborted s i
  | .recover roundDbId => stepRecover s roundDbId
  | .recovered i => stepRecovered s i
  | .fail i => stepFail s i
  | .kill => stepKill s

end Scadium.Games.Blackjack
