/-
Scadium.Games.Instant.Boards — mines, hilo and tower: their fields, and what
one move does (`games/mines`, `games/hilo`, `games/tower`, with
`packages/fair/src/{mines,hilo,tower}.ts` and the multipliers of
`constants.ts`).

A field is committed at the start of a round; the progress is what the player
sees of it. A move reads both and goes on or settles.

The random floats of `floatsFromHmac` are multiples of 1/256⁴, so a product
with a small number and its floor are exact. The multipliers are not: the
source computes them with doubles. They are fields of `Multipliers`, and
`Multipliers.exact` is the same formulas over exact values.
-/
import Mathlib.Data.List.Sort
import Scadium.Games.Instant.StatefulRound
import Scadium.Prisma.Committed
import Scadium.Shared.Constants

namespace Scadium.Shared

namespace MINES

def MIN_BET_LAMPORTS : Nat := 1000000
def MAX_BET_LAMPORTS : Nat := 100 * LAMPORTS_PER_SOL
def HOUSE_EDGE : ℚ := 5 / 100
def CELLS : Nat := 25
def MIN_MINES : Nat := 1
def MAX_MINES : Nat := 24

end MINES

namespace HILO

def MIN_BET_LAMPORTS : Nat := 1000000
def MAX_BET_LAMPORTS : Nat := 100 * LAMPORTS_PER_SOL
def HOUSE_EDGE : ℚ := 5 / 100
def RANKS : Nat := 13
def MAX_STEPS : Nat := 25

end HILO

namespace TOWER

def MIN_BET_LAMPORTS : Nat := 1000000
def MAX_BET_LAMPORTS : Nat := 100 * LAMPORTS_PER_SOL
def HOUSE_EDGE : ℚ := 5 / 100
def ROWS : Nat := 8
def COLUMNS : Nat := 3
def SAFE_PER_ROW : Nat := 2

end TOWER

inductive HiloDirection where
  | higher | lower
  deriving DecidableEq

/-- `Math.floor(x * 100) / 100` -/
def floor2 (x : ℚ) : ℚ := ⌊x * 100⌋ / 100

def minesMultiplier (mines picks : Nat) : ℚ :=
  let p : ℚ := (List.range picks).foldl
    (fun p i => p * (((MINES.CELLS : ℚ) - mines - i) / (MINES.CELLS - i))) 1
  if p ≤ 0 then 0 else floor2 ((1 - MINES.HOUSE_EDGE) / p)

def hiloWinProbability (rank : Nat) : HiloDirection → ℚ
  | .higher => (HILO.RANKS - rank) / HILO.RANKS
  | .lower => (rank + 1) / HILO.RANKS

def hiloStepMultiplier (rank : Nat) (direction : HiloDirection) : ℚ :=
  let p := hiloWinProbability rank direction
  if p ≤ 0 then 0 else floor2 ((1 - HILO.HOUSE_EDGE) / p)

def towerMultiplier (rows : Nat) : ℚ :=
  floor2 ((1 - TOWER.HOUSE_EDGE) * (TOWER.COLUMNS / TOWER.SAFE_PER_ROW) ^ rows)

end Scadium.Shared

namespace Scadium.Games.Instant

open Scadium.Fair Scadium.Fairness Scadium.Prisma Scadium.Shared

/-- The numbers the games pay by. -/
structure Multipliers where
  minesMultiplier : (mines picks : Nat) → ℚ
  hiloStepMultiplier : (rank : Nat) → HiloDirection → ℚ
  towerMultiplier : (rows : Nat) → ℚ
  /-- `floor2(cumMult * stepMult)` -/
  compound : (cumMult stepMult : ℚ) → ℚ

def Multipliers.exact : Multipliers where
  minesMultiplier := Shared.minesMultiplier
  hiloStepMultiplier := Shared.hiloStepMultiplier
  towerMultiplier := Shared.towerMultiplier
  compound cumMult stepMult := floor2 (cumMult * stepMult)

/-! ## Fields -/

/-- `arr[i]` and `arr[j]` trade places. -/
def swap (arr : List Nat) (i j : Nat) : List Nat :=
  (arr.set i (arr.getD j 0)).set j (arr.getD i 0)

/-- The loop of the shuffles, from index `i` down to 1. -/
def shuffleFrom (float : Nat → ℚ) (cells : Nat) : (i : Nat) → List Nat → List Nat
  | 0, arr => arr
  | i + 1, arr =>
      let j := ⌊float (cells - 1 - (i + 1)) * (i + 1 + 1)⌋.toNat
      shuffleFrom float cells i (swap arr (i + 1) j)

/-- The first `n` of the shuffled `[0, cells)`, sorted. -/
def drawSorted (float : Nat → ℚ) (cells n : Nat) : List Nat :=
  ((shuffleFrom float cells (cells - 1) (List.range cells)).take n).insertionSort (· ≤ ·)

/-- `floatsFromHmac(serverSeed, clientSeed, nonce, …)[i]` -/
abbrev Floats (Seed : Type) := Seed → JsString → (nonce i : Nat) → ℚ

section Fields

variable {Seed : Type} (floats : Floats Seed) (serverSeed : Seed) (clientSeed : JsString)
variable (nonce : Nat)

def mineField (cells mines : Nat) : List Nat :=
  drawSorted (floats serverSeed clientSeed nonce) cells mines

def towerTraps (rows columns safePerRow : Nat) : List (List Nat) :=
  (List.range rows).map fun r =>
    drawSorted (fun i => floats serverSeed clientSeed nonce (r * columns + i)) columns
      (columns - safePerRow)

def hiloSequence (length : Nat) : List Nat :=
  (List.range length).map fun i => ⌊floats serverSeed clientSeed nonce i * 52⌋.toNat

end Fields

def cardRank (card : Nat) : Nat := card % 13

/-! ## The state of a round -/

/-- `secret` -/
inductive Field where
  | mines (mines : List Nat) (mineCount : Nat)
  | hilo (sequence : List Nat)
  | tower (traps : List (List Nat))
  deriving DecidableEq

/-- `public`, while the round is active -/
inductive Progress where
  | mines (mineCount cells : Nat) (revealed : List Nat)
  | hilo (index card rank steps : Nat) (cumMult : ℚ) (maxSteps : Nat)
  | tower (rows columns safePerRow currentRow : Nat) (picks : List Nat)
  deriving DecidableEq

/-- How a round has ended, in its `resultJson`. -/
inductive Ending where
  | hitMine (cell : Nat)
  | busted (direction : HiloDirection) (currentRank nextCard nextRank : Nat)
  | hitTrap (row column : Nat)
  /-- `cleared`, `reachedEnd`, `reachedTop` -/
  | finished
  | cashedOut
  deriving DecidableEq

inductive Json where
  | secret (field : Field)
  | visible (progress : Progress)
  /-- `resultJson`: the field, the progress so far and the ending -/
  | result (field : Field) (progress : List Nat) (ending : Ending)
  /-- `{ ...public, ...resultJson, settled: true }` -/
  | settled (before result : Json)
  deriving DecidableEq

def Field.game : Field → StatefulGame
  | .mines .. => .mines
  | .hilo _ => .hilo
  | .tower _ => .tower

/-! ## Starts -/

/-- What a start is asked with. -/
inductive StartParams where
  | mines (mineCount : Nat)
  | hilo
  | tower
  deriving DecidableEq

def StartParams.game : StartParams → StatefulGame
  | .mines _ => .mines
  | .hilo => .hilo
  | .tower => .tower

/-- The checks of `start`, before anything is read. -/
def StartParams.check (params : StartParams) (amountLamports : Nat) : Committed Unit :=
  match params with
  | .mines mineCount => do
      Committed.ensure (MINES.MIN_MINES ≤ mineCount ∧ mineCount ≤ MINES.MAX_MINES)
        (.badRequest s!"mines must be in [{MINES.MIN_MINES}, {MINES.MAX_MINES}]")
      Committed.ensure
        (MINES.MIN_BET_LAMPORTS ≤ amountLamports ∧ amountLamports ≤ MINES.MAX_BET_LAMPORTS)
        (.badRequest "bet amount out of range")
  | .hilo =>
      Committed.ensure
        (HILO.MIN_BET_LAMPORTS ≤ amountLamports ∧ amountLamports ≤ HILO.MAX_BET_LAMPORTS)
        (.badRequest "bet amount out of range")
  | .tower =>
      Committed.ensure
        (TOWER.MIN_BET_LAMPORTS ≤ amountLamports ∧ amountLamports ≤ TOWER.MAX_BET_LAMPORTS)
        (.badRequest "bet amount out of range")

variable {Seed Digest : Type}

/-- The field a start commits to. -/
def StartParams.field (params : StartParams) (floats : Floats Seed)
    (seed : SeedContext Seed Digest) : Field :=
  match params with
  | .mines mineCount =>
      .mines (mineField floats seed.serverSeed seed.clientSeed seed.nonce MINES.CELLS mineCount)
        mineCount
  | .hilo =>
      .hilo (hiloSequence floats seed.serverSeed seed.clientSeed seed.nonce (HILO.MAX_STEPS + 1))
  | .tower =>
      .tower (towerTraps floats seed.serverSeed seed.clientSeed seed.nonce TOWER.ROWS TOWER.COLUMNS
        TOWER.SAFE_PER_ROW)

/-- The progress before the first move. -/
def Field.opening : Field → Progress
  | .mines _ mineCount => .mines mineCount MINES.CELLS []
  | .hilo sequence =>
      .hilo 0 (sequence.getD 0 0) (cardRank (sequence.getD 0 0)) 0 1 HILO.MAX_STEPS
  | .tower _ => .tower TOWER.ROWS TOWER.COLUMNS TOWER.SAFE_PER_ROW 0 []

/-- `build`: nothing is paid before the first move. -/
def StartParams.build (params : StartParams) (floats : Floats Seed)
    (seed : SeedContext Seed Digest) : BuildResult Json :=
  let field := params.field floats seed
  { secret := .secret field
    visible := .visible field.opening
    multiplier := 0 }

/-! ## Moves -/

inductive Pick where
  | cell (cell : Nat)
  | guess (direction : HiloDirection)
  | column (column : Nat)
  deriving DecidableEq

def Pick.game : Pick → StatefulGame
  | .cell _ => .mines
  | .guess _ => .hilo
  | .column _ => .tower

inductive Move where
  | pick (p : Pick)
  | cashout (game : StatefulGame)
  deriving DecidableEq

def Move.game : Move → StatefulGame
  | .pick p => p.game
  | .cashout game => game

/-- The checks of a move, before the round is read. -/
def Move.check : Move → Committed Unit
  | .pick (.cell cell) => Committed.ensure (cell < MINES.CELLS) (.badRequest "cell out of range")
  | .pick (.column column) =>
      Committed.ensure (column < TOWER.COLUMNS) (.badRequest "column out of range")
  | _ => .ok ()

/-- A property of `undefined` is read. -/
def typeError : TxError := .other none "Cannot read properties of undefined"

def minesPick (m : Multipliers) (cell : Nat) : RoundState Json → Committed (StepResult Json)
  | ⟨.secret (.mines mines mineCount), .visible (.mines _ _ revealed)⟩ =>
      if cell ∈ revealed then .error (.badRequest "cell already revealed")
      else if cell ∈ mines then
        .ok (.settle false 0 (.result (.mines mines mineCount) revealed (.hitMine cell)))
      else
        let nextRevealed := revealed ++ [cell]
        let multiplier := m.minesMultiplier mineCount nextRevealed.length
        if MINES.CELLS - mineCount ≤ nextRevealed.length then
          .ok (.settle true multiplier (.result (.mines mines mineCount) nextRevealed .finished))
        else
          .ok (.goesOn
            ⟨.secret (.mines mines mineCount), .visible (.mines mineCount MINES.CELLS nextRevealed)⟩
            multiplier)
  | _ => .error typeError

def minesCashout (m : Multipliers) : RoundState Json → Committed (StepResult Json)
  | ⟨.secret (.mines mines mineCount), .visible (.mines _ _ revealed)⟩ =>
      if revealed.length < 1 then
        .error (.badRequest "reveal at least one tile before cashing out")
      else
        .ok (.settle true (m.minesMultiplier mineCount revealed.length)
          (.result (.mines mines mineCount) revealed .cashedOut))
  | _ => .error typeError

/-- Ties count for either direction. -/
def correct (direction : HiloDirection) (currentRank nextRank : Nat) : Bool :=
  match direction with
  | .higher => decide (currentRank ≤ nextRank)
  | .lower => decide (nextRank ≤ currentRank)

def hiloGuess (m : Multipliers) (direction : HiloDirection) :
    RoundState Json → Committed (StepResult Json)
  | ⟨.secret (.hilo sequence), .visible (.hilo index _ _ steps cumMult _)⟩ =>
      match sequence[index]?, sequence[index + 1]? with
      | some current, some nextCard =>
          let currentRank := cardRank current
          let nextRank := cardRank nextCard
          if correct direction currentRank nextRank = false then
            .ok (.settle false 0
              (.result (.hilo sequence) [index] (.busted direction currentRank nextCard nextRank)))
          else
            let newCum := m.compound cumMult (m.hiloStepMultiplier currentRank direction)
            if HILO.MAX_STEPS ≤ steps + 1 then
              .ok (.settle true newCum (.result (.hilo sequence) [index + 1, steps + 1] .finished))
            else
              .ok (.goesOn
                ⟨.secret (.hilo sequence),
                  .visible (.hilo (index + 1) nextCard nextRank (steps + 1) newCum HILO.MAX_STEPS)⟩
                newCum)
      -- the sequence has `MAX_STEPS + 1` cards, so this is never read
      | _, _ => .error typeError
  | _ => .error typeError

def hiloCashout : RoundState Json → Committed (StepResult Json)
  | ⟨.secret (.hilo sequence), .visible (.hilo index _ _ steps cumMult _)⟩ =>
      if steps < 1 then
        .error (.badRequest "make at least one correct guess before cashing out")
      else .ok (.settle true cumMult (.result (.hilo sequence) [index, steps] .cashedOut))
  | _ => .error typeError

def towerPick (m : Multipliers) (column : Nat) : RoundState Json → Committed (StepResult Json)
  | ⟨.secret (.tower traps), .visible (.tower _ _ _ currentRow picks)⟩ =>
      match traps[currentRow]? with
      | none => .error typeError
      | some row =>
          if column ∈ row then
            .ok (.settle false 0 (.result (.tower traps) picks (.hitTrap currentRow column)))
          else
            let nextRow := currentRow + 1
            let nextPicks := picks ++ [column]
            let multiplier := m.towerMultiplier nextRow
            if TOWER.ROWS ≤ nextRow then
              .ok (.settle true multiplier (.result (.tower traps) nextPicks .finished))
            else
              .ok (.goesOn
                ⟨.secret (.tower traps),
                  .visible (.tower TOWER.ROWS TOWER.COLUMNS TOWER.SAFE_PER_ROW nextRow nextPicks)⟩
                multiplier)
  | _ => .error typeError

def towerCashout (m : Multipliers) : RoundState Json → Committed (StepResult Json)
  | ⟨.secret (.tower traps), .visible (.tower _ _ _ currentRow picks)⟩ =>
      if currentRow < 1 then .error (.badRequest "clear at least one row before cashing out")
      else
        .ok (.settle true (m.towerMultiplier currentRow)
          (.result (.tower traps) picks .cashedOut))
  | _ => .error typeError

/-- `apply` of a move's service. -/
def Move.apply (m : Multipliers) : Move → RoundState Json → Committed (StepResult Json)
  | .pick (.cell cell) => minesPick m cell
  | .pick (.guess direction) => hiloGuess m direction
  | .pick (.column column) => towerPick m column
  | .cashout .mines => minesCashout m
  | .cashout .hilo => hiloCashout
  | .cashout .tower => towerCashout m

end Scadium.Games.Instant
