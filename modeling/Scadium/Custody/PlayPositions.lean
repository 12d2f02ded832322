/-
Scadium.Custody.PlayPositions — stakes of play money, and the conversion of
an account at its first deposit (`custody/economy.ts`,
`custody/deposit.service.ts`).

A `Position` is what the check before a conversion looks at: a row of a game
that is not terminal, with the stakes in it. The games appear here by the
transactions that take a stake or pay one, each with the position rows it
writes; every game takes and pays through `applyBalanceDelta`. What the
outcome of a game pays is the environment's choice, as are an engine's
verdicts and all timing. A settle or a refund that runs later is a session of
its own, with what it has read or captured; `kill` takes a process with its
sessions, and `restart` all of them, with custody on or off.

`Stake.play` and `credits` record what was taken from play money and what
was paid to whom; no step reads them.
-/
import Scadium.Custody.Transfers

namespace Scadium.Custody.Play

open Scadium.Lib Scadium.Prisma Scadium.Prisma.Committed

/-! ## Positions -/

abbrev PositionId := Nat
abbrev SessionId := Nat

/-- A process. -/
abbrev Inst := Nat

/-- A stake that is debited; `play` if its account was a play account then. -/
structure Stake where
  id : Nat
  userId : UserId
  amountLamports : Nat
  play : Bool
  deriving DecidableEq

inductive Game where
  | crash
  /-- `ScheduledCrashBet` -/
  | scheduled
  | coinflip | jackpot | lottery | instant | blackjack
  deriving DecidableEq

/-- The row of a round, a draw, a flip or a scheduled bet, with its stakes:
the entries or tickets of a round, the sides of a flip, the seats in
`stateJson`. -/
structure Position where
  game : Game
  /-- The row is there, and its status is not terminal. -/
  active : Bool
  stakes : List Stake
  deriving DecidableEq

/-- `db.….count({ where: { userId, …status… } }) > 0` -/
def counts (positions : Table PositionId Position) (games : List Game) (userId : UserId) : Bool :=
  positions.entries.any fun p =>
    p.2.active && games.contains p.2.game && p.2.stakes.any (·.userId == userId)

/-- E6: stakes a user still has riding. -/
def openPlayPositions (positions : Table PositionId Position) (userId : UserId) : List String :=
  [("crash", [Game.crash, .scheduled]), ("coinflip", [.coinflip]), ("jackpot", [.jackpot]),
    ("lottery", [.lottery]), ("instant", [.instant]), ("blackjack", [.blackjack])].filterMap
      fun p => if counts positions p.2 userId then some p.1 else none

/-! ## Sessions -/

inductive BetPhase where
  /-- Debited, with its row; the engine decides. -/
  | debited
  | rejected
  | refunded
  deriving DecidableEq

/-- A call of the crash service's `placeBet`, after its debit. -/
structure Bet where
  inst : Inst
  round : PositionId
  stake : Stake
  phase : BetPhase

/-- A call of `scheduleBet`, after its debit. -/
structure Schedule where
  inst : Inst
  stake : Stake

inductive HeldPhase where
  | waiting | running | busted
  deriving DecidableEq

/-- A crash round in memory. -/
structure Held where
  round : PositionId
  phase : HeldPhase
  bets : List Stake

/-- A settle of a crash round, with the bets captured at the bust. -/
structure Settling where
  inst : Inst
  round : PositionId
  bets : List Stake

/-- A recovery, with the rows it has read. -/
structure Recovery where
  inst : Inst
  position : PositionId
  rows : List Stake

/-- A blackjack table in memory: its round and the stakes taken for it. -/
structure Dealer where
  inst : Inst
  seats : List Stake

structure State where
  /-- `custodyConfig().enabled` -/
  enabled : Bool
  custody : CustodyDb
  positions : Table PositionId Position
  next : Nat
  bets : SessionId → Option Bet
  schedules : SessionId → Option Schedule
  held : Inst → Option Held
  settles : SessionId → Option Settling
  recoveries : SessionId → Option Recovery
  /-- blackjack bets past `assertDepositedOnly`: the process and the user -/
  asserted : SessionId → Option (Inst × UserId)
  dealers : PositionId → Option Dealer
  credits : List (Stake × Bool)

def State.db (s : State) : Db := s.custody.db

/-- `isReal` -/
def real (db : Db) (userId : UserId) : Bool := (db.users userId).any (·.fundedAt.isSome)

def State.real (s : State) (userId : UserId) : Bool := Play.real s.db userId

/-- No position, nothing in flight. -/
def State.boot (users : UserId → Option User) : State where
  enabled := false
  custody := ⟨{ Db.empty with users := users }, .empty, .empty, .empty, none⟩
  positions := .empty
  next := 0
  bets _ := none
  schedules _ := none
  held _ := none
  settles _ := none
  recoveries _ := none
  asserted _ := none
  dealers _ := none
  credits := []

/-! ## Taking and paying -/

section Money

variable (s : State)

def State.setDb (db : Db) : State := { s with custody := { s.custody with db := db } }

/-- The debit, and the stake it takes. -/
def State.take (userId : UserId) (amount : Nat) (info : DeltaMeta) : Committed (Stake × State) := do
  let db ← moveBalance s.db userId (-(amount : Int)) info
  pure (⟨s.next, userId, amount, !s.real userId⟩, { s.setDb db with next := s.next + 1 })

/-- A credit for a stake, if it is of anything. -/
def State.pay (stake : Stake) (amount : Nat) (info : DeltaMeta) : Committed State :=
  if amount = 0 then .ok s
  else do
    let db ← moveBalance s.db stake.userId amount info
    pure { s.setDb db with credits := (stake, s.real stake.userId) :: s.credits }

/-- The credits of one settle. -/
def State.payAll (info : DeltaMeta) : List (Stake × Nat) → State → Committed State
  | [], s => .ok s
  | p :: ps, s => do
      let s ← s.pay p.1 p.2 info
      State.payAll info ps s

/-- What a committed transaction leaves. -/
def committed {α : Type} : Committed α → Option α
  | .ok a => some a
  | .error _ => none

def State.setPosition (p : PositionId) (position : Position) : State :=
  { s with positions := s.positions.set p position }

/-- The position of a game, while it is active. -/
def State.activeAt (game : Game) (p : PositionId) : Option Position :=
  (s.positions.get p).filter fun position => position.game == game && position.active

/-- A new row, with its stakes. -/
def State.createPosition (game : Game) (p : PositionId) (stakes : List Stake) : Option State :=
  match s.positions.get p with
  | none => some (s.setPosition p ⟨game, true, stakes⟩)
  | some _ => none

/-- A stake is taken with a row of its own. -/
def State.start (game : Game) (p : PositionId) (userId : UserId) (amount : Nat) (info : DeltaMeta) :
    Option State := do
  let (stake, s) ← committed (s.take userId amount info)
  s.createPosition game p [stake]

/-- A stake is taken into a round that is open. -/
def State.enter (game : Game) (p : PositionId) (userId : UserId) (amount : Nat) (info : DeltaMeta) :
    Option State :=
  match s.activeAt game p with
  | none => none
  | some position => do
      let (stake, s) ← committed (s.take userId amount info)
      some (s.setPosition p { position with stakes := position.stakes ++ [stake] })

/-- The guarded flip to a terminal status, and the credits, to `stakes`. -/
def State.close (game : Game) (p : PositionId) (stakes : Position → List Stake)
    (payouts : List (Stake × Nat)) (info : DeltaMeta) : Option State :=
  match s.activeAt game p with
  | none => none
  | some position =>
      if ∀ q ∈ payouts, q.1 ∈ stakes position then
        committed ((s.setPosition p { position with active := false }).payAll info payouts)
      else none

/-- Taken and paid in one transaction. -/
def State.once (userId : UserId) (amount payout : Nat) (debit credit : DeltaMeta) :
    Option State := do
  let (stake, s) ← committed (s.take userId amount debit)
  committed (s.pay stake payout credit)

end Money

/-! ## The games -/

section Games

variable (s : State)

/-- `assertPooledEntry` -/
def State.pooledEntry (position : Position) (userId : UserId) : Bool :=
  !s.enabled || (s.real userId && position.stakes.all fun b => s.real b.userId)

/-- `JackpotService.enter` -/
def enterJackpot (p : PositionId) (userId : UserId) (amount : Nat) : Option State :=
  match s.positions.get p with
  | none => none
  | some position =>
      if s.pooledEntry position userId ∧ ¬ position.stakes.any (·.userId == userId) then
        s.enter .jackpot p userId amount ⟨"jackpot_entry", "JackpotRound", some p, .jeton, none⟩
      else none

/-- The draw, or the refund of every entry. -/
def settleJackpot (p : PositionId) (refund : Bool) (payouts : List (Stake × Nat)) : Option State :=
  if refund then
    s.close .jackpot p (·.stakes) payouts ⟨"jackpot_refund", "JackpotRound", some p, .jeton, none⟩
  else s.close .jackpot p (·.stakes) payouts ⟨"jackpot_settle", "Bet", none, .jeton, none⟩

/-- `LotteryService.buyTickets`; a free ticket is a purchase of 0. -/
def buyTickets (p : PositionId) (userId : UserId) (debitLamports : Nat) : Option State :=
  match s.positions.get p with
  | none => none
  | some position =>
      if s.pooledEntry position userId then
        s.enter .lottery p userId debitLamports
          ⟨"lottery_ticket", "LotteryDraw", some p, .jeton, none⟩
      else none

def settleDraw (p : PositionId) (payouts : List (Stake × Nat)) : Option State :=
  s.close .lottery p (·.stakes) payouts ⟨"lottery_prize", "LotteryTicket", none, .jeton, none⟩

def flipStake (p : PositionId) : DeltaMeta :=
  ⟨"coinflip_stake", "CoinflipGame", some p, .jeton, none⟩
def flipPayout : DeltaMeta := ⟨"coinflip_payout", "Bet", none, .jeton, none⟩

def createFlip (p : PositionId) (userId : UserId) (amount : Nat) : Option State :=
  s.start .coinflip p userId amount (flipStake p)

/-- Created and resolved against the house in one transaction. -/
def createHouseFlip (p : PositionId) (userId : UserId) (amount payout : Nat) : Option State :=
  s.once userId amount payout (flipStake p) flipPayout

/-- `assertSameEconomy`, the joiner's stake, and the result. -/
def joinFlip (p : PositionId) (userId : UserId) (payouts : List (Stake × Nat)) : Option State :=
  match s.activeAt .coinflip p with
  | some ⟨game, active, [creator]⟩ =>
      if s.enabled ∧ s.real creator.userId ≠ s.real userId then none
      else do
        let (stake, s) ← committed (s.take userId creator.amountLamports (flipStake p))
        let s := s.setPosition p ⟨game, active, [creator, stake]⟩
        s.close .coinflip p (·.stakes) payouts flipPayout
  | _ => none

def playHouse (p : PositionId) (payouts : List (Stake × Nat)) : Option State :=
  s.close .coinflip p (·.stakes) payouts flipPayout

/-- Every stake back. -/
def refunds (stakes : List Stake) : List (Stake × Nat) := stakes.map fun b => (b, b.amountLamports)

def cancelOpenFlip (p : PositionId) : Option State :=
  match s.positions.get p with
  | none => none
  | some position => s.close .coinflip p (·.stakes) (refunds position.stakes)
      ⟨"refund", "CoinflipGame", some p, .jeton, none⟩

def settleInstantBet (gameType : String) (userId : UserId) (amount payout : Nat) : Option State :=
  s.once userId amount payout ⟨gameType ++ "_bet", "Bet", none, .jeton, none⟩
    ⟨gameType ++ "_settle", "Bet", none, .jeton, none⟩

def startStatefulRound (gameType : String) (p : PositionId) (userId : UserId) (stake : Nat) :
    Option State :=
  s.start .instant p userId stake ⟨gameType ++ "_bet", "InstantRound", none, .jeton, none⟩

/-- The terminal step of a round. -/
def advanceStatefulRound (gameType : String) (p : PositionId) (payouts : List (Stake × Nat)) :
    Option State :=
  s.close .instant p (·.stakes) payouts
    ⟨gameType ++ "_settle", "InstantRound", some p, .jeton, none⟩

/-! ### Crash -/

def crashRefund (roundId : Option PositionId) : DeltaMeta :=
  ⟨"refund", "CrashRound", roundId, .jeton, none⟩

/-- The row of a bet, unless the user has one in the round. -/
def State.addRow (p : PositionId) (stake : Stake) : Option State :=
  match s.positions.get p with
  | none => none
  | some position =>
      if position.game = .crash ∧ ¬ position.stakes.any (·.userId == stake.userId) then
        some (s.setPosition p { position with stakes := position.stakes ++ [stake] })
      else none

/-- The debit and the row; the round's status is not read. -/
def placeBet (t : SessionId) (i : Inst) (p : PositionId) (userId : UserId) (amount : Nat) :
    Option State :=
  match s.bets t with
  | some _ => none
  | none => do
      let (stake, s) ← committed
        (s.take userId amount ⟨"crash_bet", "CrashRound", some p, .jeton, none⟩)
      let s ← s.addRow p stake
      some { s with bets := Function.update s.bets t (some ⟨i, p, stake, .debited⟩) }

/-- The engine takes the bet into its current round, or refuses it. -/
def decide_ (t : SessionId) (accept : Bool) : Option State :=
  match s.bets t with
  | some ⟨i, p, stake, .debited⟩ =>
      if accept then
        match s.held i with
        | none => none
        | some h =>
            if h.round = p ∧ h.phase = .waiting ∧ ¬ h.bets.any (·.userId == stake.userId) then
              some { s with
                bets := Function.update s.bets t none
                held := Function.update s.held i (some { h with bets := h.bets ++ [stake] }) }
            else none
      else some { s with bets := Function.update s.bets t (some ⟨i, p, stake, .rejected⟩) }
  | _ => none

def refundBet (t : SessionId) : Option State :=
  match s.bets t with
  | some ⟨i, p, stake, .rejected⟩ => do
      let s ← committed (s.pay stake stake.amountLamports (crashRefund (some p)))
      some { s with bets := Function.update s.bets t (some ⟨i, p, stake, .refunded⟩) }
  | _ => none

/-- `crashBet.deleteMany({ where: { roundId, userId } })` -/
def State.deleteRows (p : PositionId) (userId : UserId) : State :=
  match s.positions.get p with
  | none => s
  | some position =>
      s.setPosition p { position with stakes := position.stakes.filter (·.userId != userId) }

def deleteBet (t : SessionId) (deleted : Bool) : Option State :=
  match s.bets t with
  | some ⟨_, p, stake, .refunded⟩ =>
      let s := if deleted then s.deleteRows p stake.userId else s
      some { s with bets := Function.update s.bets t none }
  | _ => none

/-- A round of its own in memory, without bets. -/
def install (i : Inst) (p : PositionId) : Option State :=
  match s.positions.get p with
  | some ⟨.crash, _, _⟩ =>
      some { s with held := Function.update s.held i (some ⟨p, .waiting, []⟩) }
  | _ => none

def fly (i : Inst) : Option State :=
  match s.held i with
  | some ⟨p, .waiting, bets⟩ =>
      some { s with held := Function.update s.held i (some ⟨p, .running, bets⟩) }
  | _ => none

def bust (k : SessionId) (i : Inst) : Option State :=
  match s.held i, s.settles k with
  | some ⟨p, .running, bets⟩, none => some { s with
      held := Function.update s.held i (some ⟨p, .busted, bets⟩)
      settles := Function.update s.settles k (some ⟨i, p, bets⟩) }
  | _, _ => none

/-- It claims `this.current`, and pays the bets captured at the bust. -/
def settleCrash (k : SessionId) (payouts : List (Stake × Nat)) : Option State :=
  match s.settles k with
  | none => none
  | some st =>
      match s.held st.inst with
      | none => none
      | some current => do
          let s ← s.close .crash current.round (fun _ => st.bets) payouts
            ⟨"crash_settle", "Bet", none, .jeton, none⟩
          some { s with settles := Function.update s.settles k none }

/-- The failed drain of a scheduled bet: `this.current.bets.delete`. -/
def forget (i : Inst) (userId : UserId) : Option State :=
  (s.held i).map fun h =>
    let h' := { h with bets := h.bets.filter (·.userId != userId) }
    { s with held := Function.update s.held i (some h') }

/-- `scheduledCrashBet.findUnique({ where: { userId } })` -/
def State.scheduledOf (userId : UserId) : Option (PositionId × Position) :=
  s.positions.entries.find? fun p =>
    p.2.active && p.2.game == .scheduled && p.2.stakes.any (·.userId == userId)

def scheduleBet (t : SessionId) (i : Inst) (p : PositionId) (userId : UserId) (amount : Nat) :
    Option State :=
  match s.schedules t, s.scheduledOf userId with
  | none, none => do
      let (stake, s) ← committed
        (s.take userId amount ⟨"crash_bet", "CrashRound", none, .jeton, none⟩)
      let s ← s.createPosition .scheduled p [stake]
      some { s with schedules := Function.update s.schedules t (some ⟨i, stake⟩) }
  | _, _ => none

/-- The engine queued it. -/
def queue (t : SessionId) : Option State :=
  (s.schedules t).map fun _ => { s with schedules := Function.update s.schedules t none }

/-- `scheduledCrashBet.deleteMany({ where: { userId } })` -/
def State.deleteScheduled (userId : UserId) : State :=
  match s.scheduledOf userId with
  | none => s
  | some (p, position) => s.setPosition p { position with active := false }

/-- The engine refused it. -/
def refundSchedule (t : SessionId) : Option State :=
  match s.schedules t with
  | none => none
  | some ⟨_, stake⟩ => do
      let s ← committed (s.pay stake stake.amountLamports (crashRefund none))
      let s := s.deleteScheduled stake.userId
      some { s with schedules := Function.update s.schedules t none }

def cancelScheduled (userId : UserId) : Option State :=
  match s.scheduledOf userId with
  | none => none
  | some (p, position) =>
      s.close .scheduled p (·.stakes) (refunds position.stakes) (crashRefund none)

def recoverScheduled (p : PositionId) : Option State :=
  match s.positions.get p with
  | none => none
  | some position => s.close .scheduled p (·.stakes) (refunds position.stakes)
      ⟨"crash_scheduled_refund", "CrashRound", none, .jeton, none⟩

/-- The drain of one queued bet: into the round in memory, with its row, in
the transaction that deletes the scheduled one. -/
def drain (i : Inst) (userId : UserId) : Option State :=
  match s.held i, s.scheduledOf userId with
  | some ⟨p, .waiting, bets⟩, some (q, ⟨game, _, [stake]⟩) =>
      if bets.any (·.userId == stake.userId) then none
      else do
        let s ← (s.setPosition q ⟨game, false, [stake]⟩).addRow p stake
        some { s with held := Function.update s.held i (some ⟨p, .waiting, bets ++ [stake]⟩) }
  | _, _ => none

/-! ### Recoveries -/

/-- Rounds not terminal, with their bets or seats. -/
def readRows (k : SessionId) (i : Inst) (p : PositionId) : Option State :=
  match s.recoveries k, s.positions.get p with
  | none, some position =>
      some { s with recoveries := Function.update s.recoveries k (some ⟨i, p, position.stakes⟩) }
  | _, _ => none

/-- Every row is updated by its id: one that is gone fails the transaction. -/
def recoverCrash (k : SessionId) (payouts : List (Stake × Nat)) : Option State :=
  match s.recoveries k with
  | none => none
  | some rc =>
      match s.positions.get rc.position with
      | none => none
      | some position =>
          if ∀ b ∈ rc.rows, b ∈ position.stakes then do
            let s ← s.close .crash rc.position (fun _ => rc.rows) payouts
              ⟨"crash_recovery_refund", "CrashRound", some rc.position, .jeton, none⟩
            some { s with recoveries := Function.update s.recoveries k none }
          else none

def recoverBlackjack (k : SessionId) : Option State :=
  match s.recoveries k with
  | none => none
  | some rc => do
      let s ← s.close .blackjack rc.position (fun _ => rc.rows) (refunds rc.rows)
        ⟨"blackjack_recovery_refund", "BlackjackRound", some rc.position, .jeton, none⟩
      some { s with recoveries := Function.update s.recoveries k none }

/-! ### Blackjack -/

def openTable (i : Inst) (p : PositionId) : Option State :=
  (s.createPosition .blackjack p []).map fun s =>
    { s with dealers := Function.update s.dealers p (some ⟨i, []⟩) }

def assertDepositedOnly (t : SessionId) (i : Inst) (userId : UserId) : Option State :=
  if s.enabled ∧ ¬ s.real userId then none
  else some { s with asserted := Function.update s.asserted t (some (i, userId)) }

/-- The debit; the stake is with the engine until it is paid back or settled. -/
def State.seat (p : PositionId) (dealer : Dealer) (userId : UserId) (amount : Nat) :
    Option State := do
  let (stake, s) ← committed
    (s.take userId amount ⟨"blackjack_bet", "BlackjackTable", none, .jeton, none⟩)
  some { s with
    dealers := Function.update s.dealers p (some { dealer with seats := dealer.seats ++ [stake] }) }

def betBlackjack (t : SessionId) (p : PositionId) (amount : Nat) : Option State :=
  match s.asserted t, s.dealers p with
  | some (_, userId), some dealer =>
      (s.seat p dealer userId amount).map fun s =>
        { s with asserted := Function.update s.asserted t none }
  | _, _ => none

/-- The extra stake of a double, of a user with a bet in the round. -/
def doubleBlackjack (p : PositionId) (userId : UserId) (amount : Nat) : Option State :=
  match s.dealers p with
  | none => none
  | some dealer =>
      if dealer.seats.any (·.userId == userId) then s.seat p dealer userId amount else none

/-- `credit`: a bet refused, replaced or cleared. -/
def creditBlackjack (p : PositionId) (stake : Stake) (amount : Nat) : Option State :=
  match s.dealers p with
  | none => none
  | some dealer =>
      if stake ∈ dealer.seats then
        committed (s.pay stake amount ⟨"refund", "BlackjackTable", none, .jeton, none⟩)
      else none

/-- `persistBettingStakes`, and the snapshots of the hand. -/
def persist (p : PositionId) (keep : Stake → Bool) : Option State :=
  match s.dealers p, s.positions.get p with
  | some dealer, some position =>
      some (s.setPosition p { position with stakes := dealer.seats.filter keep })
  | _, _ => none

def settleBlackjack (p : PositionId) (payouts : List (Stake × Nat)) : Option State :=
  match s.dealers p with
  | none => none
  | some dealer => s.close .blackjack p (fun _ => dealer.seats) payouts
      ⟨"blackjack_settle", "Bet", none, .jeton, none⟩

end Games

/-! ## Deposits -/

section Deposits

variable (s : State)

/-- The account a held deposit would be credited to has play stakes riding. -/
def State.openPlay (id : TransferId) : Bool :=
  match s.custody.transfers.get id with
  | none => false
  | some row =>
      match s.custody.attribute row with
      | none => false
      | some userId => !(openPlayPositions s.positions userId).isEmpty

/-- `credit`: the first one converts the account. -/
def creditDeposit (env : Env) (id : TransferId) : Option State :=
  if s.enabled then
    (committed (s.custody.credit { env with openPlay := s.openPlay id } id)).map fun custody =>
      { s with custody := custody }
  else none

/-- The wallets and transfers of custody; any movement that is not of a game. -/
def otherCustody (primary linked : Table Address UserId)
    (transfers : Table TransferId CustodyTransfer) : State :=
  { s with custody :=
      { s.custody with primary := primary, linked := linked, transfers := transfers } }

def otherMovement (userId : UserId) (delta : Int) (info : DeltaMeta) : Option State :=
  (committed (moveBalance s.db userId delta info)).map s.setDb

end Deposits

/-! ## Steps -/

/-- What a process has in memory is gone. -/
def kill (s : State) (i : Inst) : State :=
  { s with
    bets := fun t => (s.bets t).filter (·.inst != i)
    schedules := fun t => (s.schedules t).filter (·.inst != i)
    held := fun j => if j = i then none else s.held j
    settles := fun k => (s.settles k).filter (·.inst != i)
    recoveries := fun k => (s.recoveries k).filter (·.inst != i)
    asserted := fun t => (s.asserted t).filter (·.1 != i)
    dealers := fun p => (s.dealers p).filter (·.inst != i) }

/-- All processes stop, and start again with custody on or off. -/
def restart (s : State) (enabled : Bool) : State :=
  { s with
    enabled := enabled
    bets := fun _ => none
    schedules := fun _ => none
    held := fun _ => none
    settles := fun _ => none
    recoveries := fun _ => none
    asserted := fun _ => none
    dealers := fun _ => none }

inductive Event where
  | restart (enabled : Bool)
  | kill (i : Inst)
  | otherCustody (primary linked : Table Address UserId)
      (transfers : Table TransferId CustodyTransfer)
  | otherMovement (userId : UserId) (delta : Int) (info : DeltaMeta)
  | creditDeposit (env : Env) (id : TransferId)
  /-- A jackpot round, a draw or a crash round is created. -/
  | createRound (game : Game) (p : PositionId)
  | enterJackpot (p : PositionId) (userId : UserId) (amount : Nat)
  | settleJackpot (p : PositionId) (refund : Bool) (payouts : List (Stake × Nat))
  | buyTickets (p : PositionId) (userId : UserId) (debitLamports : Nat)
  | settleDraw (p : PositionId) (payouts : List (Stake × Nat))
  | createFlip (p : PositionId) (userId : UserId) (amount : Nat)
  | createHouseFlip (p : PositionId) (userId : UserId) (amount payout : Nat)
  | joinFlip (p : PositionId) (userId : UserId) (payouts : List (Stake × Nat))
  | playHouse (p : PositionId) (payouts : List (Stake × Nat))
  | cancelOpenFlip (p : PositionId)
  | settleInstantBet (gameType : String) (userId : UserId) (amount payout : Nat)
  | startStatefulRound (gameType : String) (p : PositionId) (userId : UserId) (stake : Nat)
  | advanceStatefulRound (gameType : String) (p : PositionId) (payouts : List (Stake × Nat))
  | placeBet (t : SessionId) (i : Inst) (p : PositionId) (userId : UserId) (amount : Nat)
  | decide (t : SessionId) (accept : Bool)
  | refundBet (t : SessionId)
  | deleteBet (t : SessionId) (deleted : Bool)
  | install (i : Inst) (p : PositionId)
  | fly (i : Inst)
  | bust (k : SessionId) (i : Inst)
  | settleCrash (k : SessionId) (payouts : List (Stake × Nat))
  | forget (i : Inst) (userId : UserId)
  | scheduleBet (t : SessionId) (i : Inst) (p : PositionId) (userId : UserId) (amount : Nat)
  | queue (t : SessionId)
  | refundSchedule (t : SessionId)
  | cancelScheduled (userId : UserId)
  | recoverScheduled (p : PositionId)
  | drain (i : Inst) (userId : UserId)
  | readRows (k : SessionId) (i : Inst) (p : PositionId)
  | recoverCrash (k : SessionId) (payouts : List (Stake × Nat))
  | recoverBlackjack (k : SessionId)
  | openTable (i : Inst) (p : PositionId)
  | assertDepositedOnly (t : SessionId) (i : Inst) (userId : UserId)
  | betBlackjack (t : SessionId) (p : PositionId) (amount : Nat)
  | doubleBlackjack (p : PositionId) (userId : UserId) (amount : Nat)
  | creditBlackjack (p : PositionId) (stake : Stake) (amount : Nat)
  | persist (p : PositionId) (keep : Stake → Bool)
  | settleBlackjack (p : PositionId) (payouts : List (Stake × Nat))

def step (s : State) : Event → Option State
  | .restart enabled => some (restart s enabled)
  | .kill i => some (kill s i)
  | .otherCustody primary linked transfers => some (otherCustody s primary linked transfers)
  | .otherMovement userId delta info => otherMovement s userId delta info
  | .creditDeposit env id => creditDeposit s env id
  | .createRound game p =>
      if game = .jackpot ∨ game = .lottery ∨ game = .crash then s.createPosition game p [] else none
  | .enterJackpot p userId amount => enterJackpot s p userId amount
  | .settleJackpot p refund payouts => settleJackpot s p refund payouts
  | .buyTickets p userId debitLamports => buyTickets s p userId debitLamports
  | .settleDraw p payouts => settleDraw s p payouts
  | .createFlip p userId amount => createFlip s p userId amount
  | .createHouseFlip p userId amount payout => createHouseFlip s p userId amount payout
  | .joinFlip p userId payouts => joinFlip s p userId payouts
  | .playHouse p payouts => playHouse s p payouts
  | .cancelOpenFlip p => cancelOpenFlip s p
  | .settleInstantBet gameType userId amount payout =>
      settleInstantBet s gameType userId amount payout
  | .startStatefulRound gameType p userId stake => startStatefulRound s gameType p userId stake
  | .advanceStatefulRound gameType p payouts => advanceStatefulRound s gameType p payouts
  | .placeBet t i p userId amount => placeBet s t i p userId amount
  | .decide t accept => decide_ s t accept
  | .refundBet t => refundBet s t
  | .deleteBet t deleted => deleteBet s t deleted
  | .install i p => install s i p
  | .fly i => fly s i
  | .bust k i => bust s k i
  | .settleCrash k payouts => settleCrash s k payouts
  | .forget i userId => forget s i userId
  | .scheduleBet t i p userId amount => scheduleBet s t i p userId amount
  | .queue t => queue s t
  | .refundSchedule t => refundSchedule s t
  | .cancelScheduled userId => cancelScheduled s userId
  | .recoverScheduled p => recoverScheduled s p
  | .drain i userId => drain s i userId
  | .readRows k i p => readRows s k i p
  | .recoverCrash k payouts => recoverCrash s k payouts
  | .recoverBlackjack k => recoverBlackjack s k
  | .openTable i p => openTable s i p
  | .assertDepositedOnly t i userId => assertDepositedOnly s t i userId
  | .betBlackjack t p amount => betBlackjack s t p amount
  | .doubleBlackjack p userId amount => doubleBlackjack s p userId amount
  | .creditBlackjack p stake amount => creditBlackjack s p stake amount
  | .persist p keep => persist s p keep
  | .settleBlackjack p payouts => settleBlackjack s p payouts

end Scadium.Custody.Play
