/-
Scadium.Games.Lottery.OnChain — tickets bought on chain, and their
confirmation (`LotteryService.confirmTicket`, `ChainService.verifyTicketTx`).

A transaction of `scadium_lottery` lands on its own. `confirmTicket` reads
the draw open in the memory of its process, the account, and the events of
the transaction, and then creates the tickets on the condition that the draw
row is still open. A settle is the transaction of `settleDraw`. Draws are
opened, loaded into memory and closed there at any time, and an account may
change its wallet.

The program is initialised as `scripts/setup-lottery.ts` does it. `keys` is
the unique index on `(txSignature, txIndex)`; `events` and `spent` of a
transaction and the `settlements` record what has happened.
-/
import Scadium.Games.Lottery.Buy
import Scadium.Games.Lottery.Engine
import Scadium.Lib.Calls
import Scadium.Programs.Lottery.Program

namespace Scadium.Games.Lottery.OnChain

open Scadium.Lib Scadium.Prisma Scadium.Shared
open Scadium.Programs.Lottery (Accounts Instruction TicketBought)

abbrev Signature := Nat

/-- A purchase that landed. -/
structure Landed where
  buyer : String
  instructions : List Instruction
  events : List TicketBought
  /-- what the treasury got -/
  spent : Nat
  deriving DecidableEq

/-- The draw in the memory of a process. -/
structure Current where
  id : RoundId
  drawIndex : Nat
  drawAt : Time
  isOpen : Bool
  deriving DecidableEq

/-- What `getOpenDraw` returns. -/
structure OpenDraw where
  id : RoundId
  drawIndex : Nat
  deriving DecidableEq

/-- A settle that committed. -/
structure Settlement where
  inp : SettleInput
  env : SettleEnv
  before : Db
  after : Db

structure State where
  accounts : Accounts
  txs : Table Signature Landed
  world : World
  keys : Table (Signature × Nat) EntryId
  engines : Table ProcessId Current
  settlements : List Settlement

/-- What the environment answers in a step. -/
structure Answer where
  /-- `Date.now()` -/
  now : Time
  /-- the clock of the chain, in seconds -/
  unix_timestamp : Nat
  /-- `assertCanWager` refuses -/
  refused : Bool
  /-- `getTransaction` finds the transaction -/
  found : Bool
  failAt : Option (Nat × TxError)
  /-- the ids of the new tickets -/
  randomUUID : Nat → EntryId

/-- What a call has still to do. -/
inductive Call where
  | createSeed (id : SeedId) (seed : Seed)
  | createDraw (id : RoundId) (new : NewDraw)
  | commitDraw (drawIndex : Nat) (drawAt : Time)
  /-- a process takes the draw as its current one -/
  | load (process : ProcessId) (id : RoundId) (drawAt : Time)
  | close (process : ProcessId)
  | settle (inp : SettleInput) (env : SettleEnv) (vars : Captured)
  | revealDraw (drawIndex : Nat)
  | setPrimaryWallet (userId : UserId) (walletAddress : String)
  | setBanned (userId : UserId) (banned : Bool)
  | purchase (signature : Signature) (buyer : String) (instructions : List Instruction)
  | confirmTicket (process : ProcessId) (userId : UserId) (signature : Signature)
  | findUser (userId : UserId) (signature : Signature) (draw : OpenDraw)
  | verify (userId : UserId) (signature : Signature) (draw : OpenDraw) (walletAddress : String)
  | create (userId : UserId) (signature : Signature) (draw : OpenDraw)
      (events : List TicketBought)

/-! ## The API -/

/-- A transaction has at most this many bytes, and each pick takes six. -/
def PACKET_DATA_SIZE : Nat := 1232

/-- The events in the log of the transaction. -/
def verifyTicketTx (tx : Landed) : List TicketBought :=
  Programs.Lottery.programScopedEventPayloads Programs.Lottery.ID []
    (Programs.Lottery.log tx.buyer tx.instructions)

/-- The $SCAD a ticket of a batch costs. -/
def perTicketScad (n : Nat) : Nat := bulkDiscountTotal ticketPriceScadBase n / n

/-- `lotteryTicket.create`, with the column defaults. -/
def ticketOf (deps : Games.Deps) (answer : Answer) (userId : UserId) (draw : OpenDraw) (n : Nat)
    (ei : TicketBought × Nat) : LotteryTicket where
  id := answer.randomUUID ei.2
  drawId := draw.id
  userId := userId
  digits := ei.1.digits
  costLamports := deps.scadBaseToLamports (perTicketScad n)
  costScadBase := perTicketScad n
  payoutLamports := 0
  payoutScadBase := 0
  matchLen := 0
  bracket := none
  won := false

def ticketsOf (deps : Games.Deps) (answer : Answer) (userId : UserId) (draw : OpenDraw)
    (events : List TicketBought) : List LotteryTicket :=
  events.zipIdx.map (ticketOf deps answer userId draw events.length)

/-- The transaction: each ticket in turn, then the draw must still be open. -/
def confirmTx (drawId : RoundId) (tickets : List LotteryTicket) : DbTx Unit Unit := do
  Tx.each (fun t => do
    let _ ← Tx.statement (createManyTickets [t])) tickets
  assertDrawStillOpen drawId

/-- The keys of the tickets. -/
def insertKeys (keys : Table (Signature × Nat) EntryId) (signature : Signature)
    (randomUUID : Nat → EntryId) : (n : Nat) → Table (Signature × Nat) EntryId
  | 0 => keys
  | n + 1 => (insertKeys keys signature randomUUID n).set (signature, n) (randomUUID n)

namespace State

variable (a : State)

/-- `getOpenDraw` -/
def getOpenDraw (process : ProcessId) (now : Time) : Option OpenDraw :=
  match a.engines.get process with
  | some current =>
      if !current.isOpen ∨ current.drawAt ≤ now then none
      else some ⟨current.id, current.drawIndex⟩
  | none => none

def setDb (db : Db) : State := { a with world := { a.world with db := db } }

def updateUser (userId : UserId) (f : User → User) : State :=
  match a.world.db.users userId with
  | some user =>
      a.setDb { a.world.db with users := Function.update a.world.db.users userId (some (f user)) }
  | none => a

/-- A purchase of the buyer lands, or is refused as a whole. -/
def purchase (unix_timestamp : Nat) (signature : Signature) (buyer : String)
    (instructions : List Instruction) : State :=
  if (a.txs.get signature).isSome ∨
      PACKET_DATA_SIZE < 6 * (instructions.flatMap (·.tickets buyer)).length then a
  else
    match Programs.Lottery.exec Programs.Lottery.setup unix_timestamp buyer a.accounts
        instructions with
    | .ok (accounts, events) =>
        { a with
          accounts := accounts
          txs := a.txs.set signature
            ⟨buyer, instructions, events,
              accounts.scad.get .treasury - a.accounts.scad.get .treasury⟩ }
    | .error _ => a

/-- What the environment's accounts of the program become. -/
def setAccounts : Programs.Lottery.Result Accounts → State
  | .ok accounts => { a with accounts := accounts }
  | .error _ => a

/-- The commit of a confirmation, unless one of its keys is taken. -/
def create (deps : Games.Deps) (answer : Answer) (userId : UserId) (signature : Signature)
    (draw : OpenDraw) (events : List TicketBought) : State :=
  if (List.range events.length).any fun i => (a.keys.get (signature, i)).isSome then a
  else
    match (Tx.transact (confirmTx draw.id (ticketsOf deps answer userId draw events)) ()
        a.world.db answer.failAt).2 with
    | .ok (_, db) =>
        { a.setDb db with
          keys := insertKeys a.keys signature answer.randomUUID events.length }
    | .error _ => a

def settle (deps : Games.Deps) (answer : Answer) (inp : SettleInput) (env : SettleEnv)
    (vars : Captured) : State :=
  match (Tx.transact (settleTx deps inp env) vars a.world.db answer.failAt).2 with
  | .ok (_, db) =>
      { a.setDb db with settlements := ⟨inp, env, a.world.db, db⟩ :: a.settlements }
  | .error _ => a

end State

/-- One step of a call. -/
def Call.step (deps : Games.Deps) (a : State) (answer : Answer) : Call → State × Option Call
  | .createSeed id seed => ({ a with world := a.world.createSeed id seed }, none)
  | .createDraw id new =>
      (if a.world.accepts id new then { a with world := a.world.createDraw id new } else a, none)
  | .commitDraw drawIndex drawAt =>
      (a.setAccounts (Programs.Lottery.commit_draw a.accounts drawIndex (drawAt / 1000)), none)
  | .load process id drawAt =>
      match a.world.db.lotteryDraws id with
      | some row =>
          ({ a with engines := a.engines.set process ⟨id, row.drawIndex, drawAt, true⟩ }, none)
      | none => (a, none)
  | .close process =>
      match a.engines.get process with
      | some current =>
          ({ a with engines := a.engines.set process { current with isOpen := false } }, none)
      | none => (a, none)
  | .settle inp env vars => (a.settle deps answer inp env vars, none)
  | .revealDraw drawIndex =>
      (a.setAccounts (Programs.Lottery.reveal_draw a.accounts drawIndex), none)
  | .setPrimaryWallet userId walletAddress =>
      (a.updateUser userId fun user => { user with walletAddress := walletAddress }, none)
  | .setBanned userId banned =>
      (a.updateUser userId fun user => { user with banned := banned }, none)
  | .purchase signature buyer instructions =>
      (a.purchase answer.unix_timestamp signature buyer instructions, none)
  | .confirmTicket process userId signature =>
      if answer.refused then (a, none)
      else
        match a.getOpenDraw process answer.now with
        | none => (a, none)
        | some draw => (a, some (.findUser userId signature draw))
  | .findUser userId signature draw =>
      match a.world.db.users userId with
      | none => (a, none)
      | some user =>
          if user.banned then (a, none)
          else (a, some (.verify userId signature draw user.walletAddress))
  | .verify userId signature draw walletAddress =>
      match a.txs.get signature with
      | none => (a, none)
      | some tx =>
          let events := verifyTicketTx tx
          if !answer.found ∨ events = [] then (a, none)
          else if ∀ e ∈ events, e.buyer = walletAddress ∧ e.draw_index = draw.drawIndex then
            (a, some (.create userId signature draw events))
          else (a, none)
  | .create userId signature draw events =>
      (a.create deps answer userId signature draw events, none)

/-- A call may begin so. -/
def Call.isEntry : Call → Bool
  | .findUser .. | .verify .. | .create .. => false
  | .createSeed .. | .createDraw .. | .commitDraw .. | .load .. | .close .. | .settle ..
  | .revealDraw .. | .setPrimaryWallet .. | .setBanned .. | .purchase .. | .confirmTicket .. => true

def service (deps : Games.Deps) : Calls.Service State Call Answer where
  begins _ call := call.isEntry
  step a answer call := some (call.step deps a answer)

/-- The accounts of the users and their $SCAD, and nothing else. -/
def State.initial (users : UserId → Option User) (scad : Balances Programs.Lottery.Holder) :
    State where
  accounts := ⟨.empty, scad⟩
  txs := .empty
  world := ⟨{ Db.empty with users := users }, [], fun _ => []⟩
  keys := .empty
  engines := .empty
  settlements := []

end Scadium.Games.Lottery.OnChain
