/-
Scadium.Games.RoundGuards — the guards in the transactions of shared rounds.

Of every settle (`games/settle-claim.ts`): `assertStillLeader` aborts a
demoted leader before it credits anyone, and `assertRoundClaimed` aborts a
settler whose status-guarded `updateMany` matched no row, because somebody
else has made the round terminal. Of an entry (`assertPooledEntry`,
`custody/economy.ts`): while custody is on, a shared pot takes accounts with a
credited deposit only, and only into a round without play-money entries.
-/
import Scadium.Games.WagerHooks

namespace Scadium.Games

open Scadium.Lib Scadium.Prisma

variable {κ γ : Type}

/-! ## Settles -/

def assertStillLeader (isLeader : Bool) (game : String) : DbTx κ Unit :=
  if !isLeader then throw (.settleClaimLost s!"{game}: lost leadership mid-settle — aborting")
  else pure ()

def assertRoundClaimed (count : Nat) (game : String) (roundId : RoundId) : DbTx κ Unit :=
  if count = 0 then
    throw (.settleClaimLost
      s!"{game}: round {roundId} already settled by another settler — aborting")
  else pure ()

variable {s t : TxState κ Db TxError} {u : Unit}

theorem assertStillLeader_ok {isLeader : Bool} {game : String}
    (h : (assertStillLeader isLeader game).run s = .ok u t) : isLeader = true ∧ t = s := by
  cases isLeader with
  | false => exact absurd h Tx.throw_eq_ok.mp
  | true =>
    obtain ⟨-, rfl⟩ := Tx.pure_eq_ok.mp h
    exact ⟨rfl, rfl⟩

theorem assertRoundClaimed_ok {count : Nat} {game : String} {roundId : RoundId}
    (h : (assertRoundClaimed count game roundId).run s = .ok u t) : count ≠ 0 ∧ t = s := by
  unfold assertRoundClaimed at h
  split at h
  case isTrue => exact absurd h Tx.throw_eq_ok.mp
  case isFalse hne =>
    obtain ⟨-, rfl⟩ := Tx.pure_eq_ok.mp h
    exact ⟨hne, rfl⟩

theorem assertRoundClaimed_keepsVars (q : κ → γ) (count : Nat) (game : String)
    (roundId : RoundId) : Tx.KeepsVars q (assertRoundClaimed count game roundId : DbTx κ Unit) :=
  .ite (.throw _) (.pure _)

theorem assertStillLeader_blind (isLeader : Bool) (game : String) :
    Tx.Blind (assertStillLeader isLeader game : DbTx κ Unit) :=
  .ite (.throw _) (.pure _)

theorem assertRoundClaimed_blind (count : Nat) (game : String) (roundId : RoundId) :
    Tx.Blind (assertRoundClaimed count game roundId : DbTx κ Unit) :=
  .ite (.throw _) (.pure _)

/-- A claim that counted a row passes. -/
theorem assertRoundClaimed_succeeds {P : Db → Prop} (count : Nat) (game : String)
    (roundId : RoundId) :
    Tx.Succeeds (fun db => count ≠ 0 ∧ P db) (assertRoundClaimed count game roundId : DbTx κ Unit)
      fun _ => P := by
  intro s hs ⟨hcount, hP⟩
  exact ⟨(), s, by simp [assertRoundClaimed, hcount], hs, hP⟩

/-- The claim: the guarded update matched the row and wrote it. -/
theorem claim_ok {ρ : Type} {table : Nat → Option ρ} {id : Nat} {guard : ρ → Bool}
    {data : ρ → ρ} (h : (updateManyRow table id guard data).1 ≠ 0) :
    ∃ row, table id = some row ∧ guard row = true ∧
      (updateManyRow table id guard data).2 = Function.update table id (some (data row)) := by
  rcases updateManyRow_cases table id guard data with ⟨row, hrow, hg, heq⟩ | ⟨-, heq⟩
  · exact ⟨row, hrow, hg, by rw [heq]⟩
  · rw [heq] at h
    exact absurd rfl h

/-! ## Entries -/

/-- A pooled game: one shared pot per round. -/
inductive PooledGame where
  | jackpot | lottery
  deriving DecidableEq

def PooledGame.name : PooledGame → String
  | .jackpot => "jackpot"
  | .lottery => "lottery"

/-- What the messages call a round of the game. -/
def PooledGame.roundName : PooledGame → String
  | .jackpot => "round"
  | .lottery => "draw"

def assertDepositedOnly (deps : Deps) (userId : UserId) (game : String) : DbTx κ Unit :=
  if !deps.economyEnforced then pure ()
  else do
    let real ← isReal userId
    if !real then
      throw (.forbidden s!"Deposit SOL to play {game} — it is played with deposited funds only")

/-- `user: { fundedAt: null }` -/
def isPlay (db : Db) (userId : UserId) : Bool :=
  match db.users userId with
  | some user => user.fundedAt.isNone
  | none => false

/-- A play-money entry of the round, if it has one. -/
def hasPlayEntry (game : PooledGame) (roundId : RoundId) (db : Db) : Bool :=
  match game with
  | .jackpot => db.jackpotEntries.any fun e => e.roundId == roundId && isPlay db e.userId
  | .lottery => db.lotteryTickets.any fun t => t.drawId == roundId && isPlay db t.userId

def assertPooledEntry (deps : Deps) (userId : UserId) (game : PooledGame) (roundId : RoundId) :
    DbTx κ Unit :=
  if !deps.economyEnforced then pure ()
  else do
    assertDepositedOnly deps userId game.name
    let playEntry ← Tx.query (hasPlayEntry game roundId)
    if playEntry then
      throw (.forbidden
        s!"This {game.roundName} still holds play-money entries — join the next one")

/-- The check only reads. -/
theorem assertPooledEntry_keeps {γ : Type} (p : Db → γ) (deps : Deps) (userId : UserId)
    (game : PooledGame) (roundId : RoundId) :
    Tx.Keeps p (assertPooledEntry deps userId game roundId : DbTx κ Unit) := by
  have hfind : Tx.Keeps p (Tx.statement (·.findUser userId) : DbTx κ User) := by
    refine .statement ?_
    intro db user db' h
    unfold Db.findUser at h
    split at h
    · cases h
      rfl
    · cases h
  unfold assertPooledEntry assertDepositedOnly isReal
  refine .ite (.pure _) (.bind (.ite (.pure _) (.bind (.bind hfind fun _ => .pure _) fun _ =>
    .ite (.throw _) (.pure _))) fun _ => .bind (.query _) fun _ => .ite (.throw _) (.pure _))

end Scadium.Games
