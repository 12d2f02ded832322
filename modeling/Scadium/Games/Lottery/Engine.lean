/-
Scadium.Games.Lottery.Engine — the loop of the lottery
(`games/lottery/lottery.engine.ts`), as a system of processes.

A process keeps the rollover of the last settle in memory
(`carryRolloverScadBase`) until it opens the next draw. Its tasks are async
functions at an await: `recoverStrandedDraws`, `openNewDraw` and
`drawAndSettle`, each step running to the next await. Timers, the watchdog,
leadership and the clock are the environment's choice, and so is what the
chain and the beacon answer.

Where a rollover came from is remembered beside it, in parcels: the draw
that produced it and how much. Nothing the code does depends on them.
-/
import Scadium.Lib.Table
import Scadium.Games.Lottery.Settle

namespace Scadium.Games.Lottery

open Scadium.Lib Scadium.Prisma Scadium.Shared

/-- The rollover of a draw. -/
abbrev Parcel := RoundId × Nat

def parcel (drawId : RoundId) (amount : Nat) : List Parcel :=
  if 0 < amount then [(drawId, amount)] else []

/-! ## Tasks -/

/-- The draw in memory, but for what is only displayed. -/
structure CurrentDraw where
  id : RoundId
  drawIndex : Nat
  seedId : SeedId
  seed : Seed
  nonce : Nat
  status : LotteryDrawStatus
  injectionScadBase : Nat
  rolloverScadBase : Nat

/-- An open draw, as the recovery scan read it. -/
structure Stranded where
  id : RoundId
  row : LotteryDraw

/-- How a draw came out. -/
structure Drawn where
  digits : List Nat
  slotHash : Bytes32
  fairness : String
  beaconRound : Option Int
  revealTxSignature : Option String
  lotteryEnabled : Bool

/-- Who waits for a settle. -/
inductive Kont where
  | timer
  | recovery (rest : List Stranded) (live : Option Stranded)

/-- The row `openNewDraw` is about to create. -/
structure NewDraw where
  drawIndex : Nat
  seedId : SeedId
  seed : Seed
  rolloverScadBase : Nat
  parcels : List Parcel

/-- A pending await; `openNewDraw` runs for a boot or for a settle. -/
inductive Task where
  /-- `recoverStrandedDraws()` -/
  | scan
  | rebuild (d : Stranded) (rest : List Stranded) (live : Option Stranded)
  | resume (live : Stranded)
  /-- `openNewDraw()` -/
  | createSeed (k : Option Kont)
  | maxIndex (seedId : SeedId) (seed : Seed) (k : Option Kont)
  | createDraw (new : NewDraw) (k : Option Kont)
  | commitDraw (draw : CurrentDraw) (k : Option Kont)
  /-- `settleDraw(…)` -/
  | reveal (draw : CurrentDraw) (k : Kont)
  | transaction (draw : CurrentDraw) (drawn : Drawn) (vars : Captured) (k : Kont)
  | committed (draw : CurrentDraw) (nextRollover : Nat) (k : Kont)
  | payPrizes (k : Kont)
  | done

abbrev ProcessId := Nat
abbrev TaskId := Nat

/-- The engine's fields. -/
structure Process where
  carryRolloverScadBase : Nat
  carried : List Parcel
  current : Option CurrentDraw
  settling : Bool
  recovering : Bool
  tasks : Table TaskId Task

def Process.fresh : Process := ⟨0, [], none, false, false, .empty⟩

/-- The rollover a task has taken and not yet handed on. -/
def Task.rollover : Task → Nat
  | .createDraw new _ => new.rolloverScadBase
  | .committed _ nextRollover _ => nextRollover
  | _ => 0

def Task.parcels : Task → List Parcel
  | .createDraw new _ => new.parcels
  | .committed draw nextRollover _ => parcel draw.id nextRollover
  | _ => []

/-! ## The database and the environment -/

/-- `drawIds` are the draws in the order of their creation; `sources` tells
what the rollover base of each was made of. -/
structure World where
  db : Db
  drawIds : List RoundId
  sources : RoundId → List Parcel

/-- What the environment answers in a step. -/
structure Env where
  isLeader : Bool
  /-- `drawAt` has passed. -/
  due : RoundId → Bool
  newSeedId : SeedId
  newSeed : Seed
  newDrawId : RoundId
  /-- Nothing while the beacon is unavailable. -/
  drawn : Option Drawn
  failAt : Option (Nat × TxError)
  settle : SettleEnv
  /-- An attempt of the transaction is left. -/
  again : Bool

def World.findOpen (w : World) : List Stranded :=
  w.drawIds.filterMap fun id =>
    match w.db.lotteryDraws id with
    | some row => if row.status = .open then some ⟨id, row⟩ else none
    | none => none

/-- `(max(drawIndex) ?? 0) + 1` -/
def World.nextIndex (w : World) : Nat :=
  ((w.drawIds.filterMap w.db.lotteryDraws).map LotteryDraw.drawIndex).foldl max 0 + 1

def World.createSeed (w : World) (id : SeedId) (seed : Seed) : World :=
  { w with db := { w.db with seeds := Function.update w.db.seeds id (some seed) } }

def NewDraw.row (new : NewDraw) : LotteryDraw where
  drawIndex := new.drawIndex
  seedId := new.seedId
  nonce := 0
  status := .open
  injectionScadBase := LOTTERY.INJECTION_SCAD_BASE
  rolloverScadBase := new.rolloverScadBase
  winningDigits := []
  slotHash := none
  fairness := none
  beaconRound := none
  totalPoolScadBase := 0
  burnScadBase := 0
  bracketWinnerCounts := []
  bracketAmountsScadBase := []
  bracketRolloverScadBase := []
  revealTxSignature := none
  drawnAt := none

/-- The insert is accepted: a new id, and `drawIndex` is unique. -/
def World.accepts (w : World) (id : RoundId) (new : NewDraw) : Bool :=
  (w.db.lotteryDraws id).isNone && (w.drawIds.filterMap w.db.lotteryDraws).all fun row =>
    row.drawIndex ≠ new.drawIndex

def World.createDraw (w : World) (id : RoundId) (new : NewDraw) : World where
  db := { w.db with lotteryDraws := Function.update w.db.lotteryDraws id (some new.row) }
  drawIds := w.drawIds ++ [id]
  sources := Function.update w.sources id new.parcels

def NewDraw.current (new : NewDraw) (id : RoundId) : CurrentDraw :=
  ⟨id, new.drawIndex, new.seedId, new.seed, 0, .open, LOTTERY.INJECTION_SCAD_BASE,
    new.rolloverScadBase⟩

/-- `rebuildDraw(d)` -/
def World.rebuildDraw (w : World) (d : Stranded) : Option CurrentDraw :=
  (w.db.seeds d.row.seedId).map fun seed =>
    ⟨d.id, d.row.drawIndex, d.row.seedId, seed, d.row.nonce, .open, d.row.injectionScadBase,
      d.row.rolloverScadBase⟩

def CurrentDraw.input (draw : CurrentDraw) (r : Drawn) : SettleInput where
  drawId := draw.id
  drawIndex := draw.drawIndex
  seedId := draw.seedId
  serverSeed := draw.seed.serverSeed
  serverSeedHash := draw.seed.serverSeedHash
  clientSeed := draw.seed.clientSeed
  nonce := draw.nonce
  injectionScadBase := draw.injectionScadBase
  rolloverScadBase := draw.rolloverScadBase
  digits := r.digits
  slotHash := r.slotHash
  fairness := r.fairness
  beaconRound := r.beaconRound
  revealTxSignature := r.revealTxSignature
  lotteryEnabled := r.lotteryEnabled

/-! ## Steps of a process -/

/-- `openNewDraw()` of a boot. -/
def Process.openAtBoot (env : Env) (p : Process) : Process × Task :=
  (p, if env.isLeader then .createSeed none else .done)

/-- The recovery loop goes on. -/
def Process.nextStranded (env : Env) (p : Process) (rest : List Stranded)
    (live : Option Stranded) : Process × Task :=
  match rest with
  | d :: rest => (p, .rebuild d rest live)
  | [] =>
      let p := { p with recovering := false }
      match live with
      | some d => (p, .resume d)
      | none => p.openAtBoot env

/-- `drawAndSettle` ended, or threw: `finally { this.settling = false }`. -/
def Process.settleEnded (env : Env) (p : Process) (k : Kont) : Process × Task :=
  let p := { p with settling := false }
  match k with
  | .timer => (p, .done)
  | .recovery rest live => p.nextStranded env rest live

/-- `drawAndSettle` returned false; a retry is scheduled. -/
def Process.settleFailed (p : Process) : Kont → Process × Task
  | .timer => ({ p with settling := false }, .done)
  | .recovery _ _ => ({ p with settling := false, recovering := false }, .done)

/-- After `openNewDraw`. -/
def Process.opened (env : Env) (p : Process) : Option Kont → Process × Task
  | none => (p, .done)
  | some k => p.settleEnded env k

/-- `if (!this.recovering) await this.openNewDraw()` -/
def Process.openNext (env : Env) (p : Process) (k : Kont) : Process × Task :=
  if p.recovering = false ∧ env.isLeader then (p, .createSeed (some k)) else p.settleEnded env k

/-- `drawAndSettle()`, up to its first await. -/
def Process.drawAndSettle (env : Env) (p : Process) (k : Kont) : Process × Task :=
  match p.current with
  | some draw =>
      if env.isLeader = false ∨ p.settling then
        match k with
        | .timer => (p, .done)
        | .recovery _ _ => ({ p with recovering := false }, .done)
      else ({ p with settling := true }, .reveal draw k)
  | none => (p, .done)

/-- The stranded draws: all the open ones but the newest that is not due. -/
def Process.recover (env : Env) (p : Process) (found : List Stranded) : Process × Task :=
  if found.isEmpty then p.openAtBoot env
  else
    let live := found.reverse.find? fun d => !env.due d.id
    let toSettle := found.filter fun d => live.all fun l => d.id ≠ l.id
    { p with recovering := true }.nextStranded env toSettle live

/-- After the rows are committed. -/
def Process.keepRollover (p : Process) (draw : CurrentDraw) (nextRollover : Nat) : Process :=
  { p with
    current := p.current.map fun d => if d.id = draw.id then { d with status := .drawn } else d
    carryRolloverScadBase := nextRollover
    carried := parcel draw.id nextRollover }

/-- `const rollover = this.carryRolloverScadBase; this.carryRolloverScadBase = 0` -/
def Process.takeRollover (p : Process) (drawIndex : Nat) (seedId : SeedId) (seed : Seed) :
    Process × NewDraw :=
  ({ p with carryRolloverScadBase := 0, carried := [] },
    ⟨drawIndex, seedId, seed, p.carryRolloverScadBase, p.carried⟩)

def World.withDb (w : World) (db : Db) : World := { w with db := db }

/-- An attempt of the settle transaction. -/
def settleAttempt (deps : Deps) (w : World) (env : Env) (p : Process) (draw : CurrentDraw)
    (drawn : Drawn) (vars : Captured) (k : Kont) : World × Process × Task :=
  match Tx.transact (settleTx deps (draw.input drawn) env.settle) vars w.db env.failAt with
  | (vars, .ok (_, db)) => (w.withDb db, p, .committed draw vars.nextRollover k)
  | (vars, .error e) =>
      match e with
      | .settleClaimLost _ => (w, p.settleEnded env k)
      | _ =>
          if isRetryable e ∧ env.again then (w, p, .transaction draw drawn vars k)
          else (w, p.settleFailed k)

/-- A step of a task: the database, the process and the next await. -/
def Task.step (deps : Deps) (w : World) (env : Env) (p : Process) : Task → World × Process × Task
  | .scan => (w, p.recover env w.findOpen)
  | .rebuild d rest live =>
      match w.rebuildDraw d with
      | some draw =>
          (w, { p with current := some draw }.drawAndSettle env (.recovery rest live))
      | none => (w, p.nextStranded env rest live)
  | .resume live =>
      match w.rebuildDraw live with
      | some draw => (w, { p with current := some draw }, .done)
      | none => (w, p.openAtBoot env)
  | .createSeed k =>
      (w.createSeed env.newSeedId env.newSeed, p, .maxIndex env.newSeedId env.newSeed k)
  | .maxIndex seedId seed k =>
      let r := p.takeRollover w.nextIndex seedId seed
      (w, r.1, .createDraw r.2 k)
  | .createDraw new k =>
      if w.accepts env.newDrawId new then
        (w.createDraw env.newDrawId new, p, .commitDraw (new.current env.newDrawId) k)
      else (w, p.opened env k)
  | .commitDraw draw k => (w, { p with current := some draw }.opened env k)
  | .reveal draw k =>
      match env.drawn with
      | some drawn => (w, p, .transaction draw drawn .init k)
      | none => (w, p.settleFailed k)
  | .transaction draw drawn vars k => settleAttempt deps w env p draw drawn vars k
  | .committed draw nextRollover k => (w, p.keepRollover draw nextRollover, .payPrizes k)
  | .payPrizes k => (w, p.openNext env k)
  | .done => (w, p, .done)

/-- The await throws. -/
def Task.throws (env : Env) (p : Process) : Task → Process × Task
  | .scan | .resume _ => p.openAtBoot env
  | .rebuild _ rest live => p.nextStranded env rest live
  | .createSeed k | .maxIndex _ _ k | .createDraw _ k | .commitDraw _ k => p.opened env k
  | .reveal _ k | .payPrizes k => p.settleEnded env k
  | .transaction _ _ _ k | .committed _ _ k => p.settleFailed k
  | .done => (p, .done)

/-! ## The system -/

structure System where
  world : World
  processes : Table ProcessId Process

/-- How a task begins. -/
inductive Entry where
  | bootDraws
  /-- The draw timer, a settle retry, the watchdog or a forced draw. -/
  | drawAndSettle

def Entry.begin (env : Env) (p : Process) : Entry → Process × Task
  | .bootDraws => (p, .scan)
  | .drawAndSettle => p.drawAndSettle env .timer

inductive Act where
  | boot (process : ProcessId)
  | start (process : ProcessId) (task : TaskId) (entry : Entry) (env : Env)
  | run (process : ProcessId) (task : TaskId) (env : Env)
  | throws (process : ProcessId) (task : TaskId) (env : Env)
  | kill (process : ProcessId)
  /-- Tickets are bought; other parts of the system write their tables, not
  the draws. -/
  | other (db : Db)

/-- The process after one of its tasks moved on. -/
def Process.put (task : TaskId) (r : Process × Task) : Process :=
  { r.1 with tasks := r.1.tasks.set task r.2 }

def System.task? (s : System) (process : ProcessId) (task : TaskId) : Option (Process × Task) :=
  match s.processes.get process with
  | some p => (p.tasks.get task).map fun t => (p, t)
  | none => none

def step (deps : Deps) (s : System) : Act → Option System
  | .boot process =>
      match s.processes.get process with
      | none => some { s with processes := s.processes.set process .fresh }
      | some _ => none
  | .start process task entry env =>
      match s.processes.get process with
      | some p =>
          match p.tasks.get task with
          | none => some { s with
              processes := s.processes.set process (.put task (entry.begin env p)) }
          | some _ => none
      | none => none
  | .run process task env =>
      match s.task? process task with
      | some (p, t) =>
          let r := t.step deps s.world env p
          some ⟨r.1, s.processes.set process (.put task r.2)⟩
      | none => none
  | .throws process task env =>
      match s.task? process task with
      | some (p, t) =>
          some { s with processes := s.processes.set process (.put task (t.throws env p)) }
      | none => none
  | .kill process =>
      match s.processes.get process with
      | some _ => some { s with processes := s.processes.erase process }
      | none => none
  | .other db =>
      some { s with
        world := s.world.withDb { db with lotteryDraws := s.world.db.lotteryDraws } }

/-- Before the first draw. -/
def System.initial (db : Db) : System :=
  ⟨⟨{ db with lotteryDraws := fun _ => none }, [], fun _ => []⟩, .empty⟩

end Scadium.Games.Lottery
