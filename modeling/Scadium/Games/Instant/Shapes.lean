/-
Scadium.Games.Instant.Shapes — mines, hilo and tower on boards of any size.

The multipliers of `constants.ts` take the size of the board and the edge as
arguments; the services play with the defaults. Here the size and the edge are
those of a `Shape` throughout, also where a service compares with a constant,
and the shape of the source gives the moves of `Scadium.Games.Instant.Boards`
back (`apply_source`).
-/
import Scadium.Games.Instant.Boards

namespace Scadium.Games.Instant

open Scadium.Prisma Scadium.Shared

structure Shape where
  cells : Nat
  ranks : Nat
  maxSteps : Nat
  rows : Nat
  columns : Nat
  safePerRow : Nat
  edge : ℚ

def Shape.source : Shape where
  cells := MINES.CELLS
  ranks := HILO.RANKS
  maxSteps := HILO.MAX_STEPS
  rows := TOWER.ROWS
  columns := TOWER.COLUMNS
  safePerRow := TOWER.SAFE_PER_ROW
  edge := MINES.HOUSE_EDGE

namespace Shape

variable (b : Shape)

/-! ## Multipliers -/

/-- `p` of `minesMultiplier`: all of the picks were safe. -/
def survival (mines picks : Nat) : ℚ :=
  (List.range picks).foldl
    (fun (p : ℚ) (i : Nat) => p * (((b.cells : ℚ) - mines - i) / (b.cells - i))) 1

def minesMultiplier (mines picks : Nat) : ℚ :=
  if b.survival mines picks ≤ 0 then 0 else floor2 ((1 - b.edge) / b.survival mines picks)

def hiloWinProbability (rank : Nat) : HiloDirection → ℚ
  | .higher => (b.ranks - rank) / b.ranks
  | .lower => (rank + 1) / b.ranks

def hiloStepMultiplier (rank : Nat) (direction : HiloDirection) : ℚ :=
  if b.hiloWinProbability rank direction ≤ 0 then 0
  else floor2 ((1 - b.edge) / b.hiloWinProbability rank direction)

def towerMultiplier (rows : Nat) : ℚ :=
  floor2 ((1 - b.edge) * (b.columns / b.safePerRow) ^ rows)

def multipliers : Multipliers where
  minesMultiplier := b.minesMultiplier
  hiloStepMultiplier := b.hiloStepMultiplier
  towerMultiplier := b.towerMultiplier
  compound cumMult stepMult := floor2 (cumMult * stepMult)

theorem minesMultiplier_source (mines picks : Nat) :
    source.minesMultiplier mines picks = Shared.minesMultiplier mines picks := by
  have hcast : (do let i ← List.range picks; pure (i : ℚ)) =
      (List.range picks).map (Nat.cast : Nat → ℚ) := by
    rw [List.map_eq_flatMap]
    rfl
  simp only [Shared.minesMultiplier]
  rw [hcast, List.foldl_map]
  rfl

theorem multipliers_source : source.multipliers = Multipliers.exact := by
  have hmines : source.minesMultiplier = Shared.minesMultiplier := by
    funext mines picks
    exact minesMultiplier_source mines picks
  rw [multipliers, hmines]
  rfl

/-! ## Moves -/

def cardRank (card : Nat) : Nat := card % b.ranks

/-- The progress before the first move. -/
def opening : Field → Progress
  | .mines _ mineCount => .mines mineCount b.cells []
  | .hilo sequence =>
      .hilo 0 (sequence.getD 0 0) (b.cardRank (sequence.getD 0 0)) 0 1 b.maxSteps
  | .tower _ => .tower b.rows b.columns b.safePerRow 0 []

def check : Move → Committed Unit
  | .pick (.cell cell) => Committed.ensure (cell < b.cells) (.badRequest "cell out of range")
  | .pick (.column column) =>
      Committed.ensure (column < b.columns) (.badRequest "column out of range")
  | _ => .ok ()

def minesPick (cell : Nat) : RoundState Json → Committed (StepResult Json)
  | ⟨.secret (.mines mines mineCount), .visible (.mines _ _ revealed)⟩ =>
      if cell ∈ revealed then .error (.badRequest "cell already revealed")
      else if cell ∈ mines then
        .ok (.settle false 0 (.result (.mines mines mineCount) revealed (.hitMine cell)))
      else
        let nextRevealed := revealed ++ [cell]
        let multiplier := b.minesMultiplier mineCount nextRevealed.length
        if b.cells - mineCount ≤ nextRevealed.length then
          .ok (.settle true multiplier (.result (.mines mines mineCount) nextRevealed .finished))
        else
          .ok (.goesOn
            ⟨.secret (.mines mines mineCount), .visible (.mines mineCount b.cells nextRevealed)⟩
            multiplier)
  | _ => .error typeError

def hiloGuess (direction : HiloDirection) : RoundState Json → Committed (StepResult Json)
  | ⟨.secret (.hilo sequence), .visible (.hilo index _ _ steps cumMult _)⟩ =>
      match sequence[index]?, sequence[index + 1]? with
      | some current, some nextCard =>
          let currentRank := b.cardRank current
          let nextRank := b.cardRank nextCard
          if correct direction currentRank nextRank = false then
            .ok (.settle false 0
              (.result (.hilo sequence) [index] (.busted direction currentRank nextCard nextRank)))
          else
            let newCum := floor2 (cumMult * b.hiloStepMultiplier currentRank direction)
            if b.maxSteps ≤ steps + 1 then
              .ok (.settle true newCum (.result (.hilo sequence) [index + 1, steps + 1] .finished))
            else
              .ok (.goesOn
                ⟨.secret (.hilo sequence),
                  .visible (.hilo (index + 1) nextCard nextRank (steps + 1) newCum b.maxSteps)⟩
                newCum)
      | _, _ => .error typeError
  | _ => .error typeError

def towerPick (column : Nat) : RoundState Json → Committed (StepResult Json)
  | ⟨.secret (.tower traps), .visible (.tower _ _ _ currentRow picks)⟩ =>
      match traps[currentRow]? with
      | none => .error typeError
      | some row =>
          if column ∈ row then
            .ok (.settle false 0 (.result (.tower traps) picks (.hitTrap currentRow column)))
          else
            let nextRow := currentRow + 1
            let nextPicks := picks ++ [column]
            let multiplier := b.towerMultiplier nextRow
            if b.rows ≤ nextRow then
              .ok (.settle true multiplier (.result (.tower traps) nextPicks .finished))
            else
              .ok (.goesOn
                ⟨.secret (.tower traps),
                  .visible (.tower b.rows b.columns b.safePerRow nextRow nextPicks)⟩
                multiplier)
  | _ => .error typeError

/-- `apply` of a move's service. -/
def apply : Move → RoundState Json → Committed (StepResult Json)
  | .pick (.cell cell) => b.minesPick cell
  | .pick (.guess direction) => b.hiloGuess direction
  | .pick (.column column) => b.towerPick column
  | .cashout .mines => minesCashout b.multipliers
  | .cashout .hilo => hiloCashout
  | .cashout .tower => towerCashout b.multipliers

/-- The services play the shape of the source. -/
theorem apply_source (move : Move) : source.apply move = move.apply Multipliers.exact := by
  rw [← multipliers_source]
  cases move with
  | pick p => cases p <;> rfl
  | cashout game => cases game <;> rfl

theorem check_source (move : Move) : source.check move = move.check := by
  cases move with
  | pick p => cases p <;> rfl
  | cashout => rfl

/-! ## Rounds -/

/-- One request: the checks, and `apply`. -/
def request (move : Move) (st : RoundState Json) : Committed (StepResult Json) := do
  b.check move
  b.apply move st

/-- The lamports a round is paid by the end of `n` requests. A player chooses
each by all that was visible; a refused request leaves the round as it was. -/
def play (stake : Nat) (strategy : List Json → Move) : (n : Nat) → RoundState Json → List Json → Nat
  | 0, _, _ => 0
  | n + 1, st, seen =>
      match b.request (strategy (st.visible :: seen)) st with
      | .ok (.goesOn st' _) => play stake strategy n st' (st.visible :: seen)
      | .ok (.settle won multiplier _) => payoutLamports stake won multiplier
      | .error _ => play stake strategy n st (st.visible :: seen)

/-- From the start of a round on a field. -/
def payout (stake : Nat) (strategy : List Json → Move) (n : Nat) (f : Field) : Nat :=
  b.play stake strategy n ⟨.secret f, .visible (b.opening f)⟩ []

end Shape

end Scadium.Games.Instant
