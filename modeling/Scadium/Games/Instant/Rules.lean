/-
Scadium.Games.Instant.Rules — the rules of mines, hilo and tower, without the
JSON they are kept in.

The picks of a round are a list, newest first. A pick is `safe` or not by the
field and the picks before it, a number of safe picks finishes the round, and
the multiplier is a function of the safe picks. `apply_pick` and
`apply_cashout` say that a move of the code is a move by these rules.

`Agrees f g ps` says that two fields show the same where the picks `ps` look.
Such picks then lead to the same progress and the same multiplier
(`replay_agrees`): what is visible is a function of what is revealed.
-/
import Scadium.Games.Instant.Boards

namespace Scadium.Games.Instant

open Scadium.Shared

/-! ## Rules -/

/-- The next pick after `n` safe ones. -/
def Field.safe : Field → (n : Nat) → Pick → Bool
  | .mines ms _, _, .cell c => decide (c ∉ ms)
  | .hilo sequence, n, .guess direction =>
      correct direction (cardRank (sequence.getD n 0)) (cardRank (sequence.getD (n + 1) 0))
  | .tower traps, n, .column c => decide (c ∉ traps.getD n [])
  | _, _, _ => false

/-- `n` safe picks end the round: the field is cleared, the sequence is at its
end, the top is reached. -/
def Field.finishes : Field → (n : Nat) → Prop
  | .mines _ mineCount, n => MINES.CELLS - mineCount ≤ n
  | .hilo _, n => HILO.MAX_STEPS ≤ n
  | .tower _, n => TOWER.ROWS ≤ n

/-- The picks are picks of this game, all of them safe, and no cell twice. -/
def Field.Survived (f : Field) : List Pick → Prop
  | [] => True
  | p :: ps =>
      p.game = f.game ∧ (f.game = .mines → p ∉ ps) ∧ f.safe ps.length p = true ∧ f.Survived ps

/-- `cumMult` of hilo: the steps are compounded in order. -/
def cumMult (m : Multipliers) (sequence : List Nat) : List Pick → ℚ
  | .guess direction :: ps =>
      m.compound (cumMult m sequence ps)
        (m.hiloStepMultiplier (cardRank (sequence.getD ps.length 0)) direction)
  | _ => 1

/-- The multiplier of the picks; 0 before the first. -/
def Field.multiplier (m : Multipliers) : Field → List Pick → ℚ
  | _, [] => 0
  | .mines _ mineCount, ps => m.minesMultiplier mineCount ps.length
  | .hilo sequence, ps => cumMult m sequence ps
  | .tower _, ps => m.towerMultiplier ps.length

def Pick.number : Pick → Nat
  | .cell c => c
  | .column c => c
  | .guess _ => 0

/-- What is visible after the picks. -/
def Field.progress (m : Multipliers) : Field → List Pick → Progress
  | .mines _ mineCount, ps => .mines mineCount MINES.CELLS (ps.map (·.number)).reverse
  | .hilo sequence, ps =>
      .hilo ps.length (sequence.getD ps.length 0) (cardRank (sequence.getD ps.length 0)) ps.length
        (cumMult m sequence ps) HILO.MAX_STEPS
  | .tower _, ps =>
      .tower TOWER.ROWS TOWER.COLUMNS TOWER.SAFE_PER_ROW ps.length (ps.map (·.number)).reverse

/-- The state of a round after the picks. -/
def Field.after (m : Multipliers) (f : Field) (ps : List Pick) : RoundState Json :=
  ⟨.secret f, .visible (f.progress m ps)⟩

/-- What a pick after the picks `ps` does, by the rules. -/
def PickResult (m : Multipliers) (f : Field) (ps : List Pick) (p : Pick) (r : StepResult Json) :
    Prop :=
  p.game = f.game ∧ (f.game = .mines → p ∉ ps) ∧
    ((f.safe ps.length p = false ∧ ∃ json, r = .settle false 0 json) ∨
    (f.safe ps.length p = true ∧ f.finishes (ps.length + 1) ∧
      ∃ json, r = .settle true (f.multiplier m (p :: ps)) json) ∨
    (f.safe ps.length p = true ∧ ¬ f.finishes (ps.length + 1) ∧
      r = .goesOn (f.after m (p :: ps)) (f.multiplier m (p :: ps))))

variable {m : Multipliers} {f g : Field} {p : Pick} {ps : List Pick} {r : StepResult Json}
variable {st : RoundState Json} {x : ℚ}

@[simp] theorem Field.progress_nil (m : Multipliers) (f : Field) : f.progress m [] = f.opening := by
  cases f with
  | mines => rfl
  | hilo => rfl
  | tower => rfl

/-- The cells that were picked, by their numbers. -/
theorem Field.Survived.mem_cells {mines : List Nat} {k cell : Nat}
    (h : (Field.mines mines k).Survived ps) :
    cell ∈ (ps.map (·.number)).reverse ↔ Pick.cell cell ∈ ps := by
  induction ps with
  | nil => simp
  | cons p ps ih =>
    obtain ⟨hgame, -, -, hrest⟩ := h
    have hps := ih hrest
    simp only [List.mem_reverse, List.map_cons, List.mem_cons] at hps ⊢
    rw [hps]
    cases p with
    | cell => simp [Pick.number]
    | guess => cases hgame
    | column => cases hgame

/-! ## The code plays by the rules -/

theorem minesPick_spec {mines : List Nat} {k cell : Nat} (hs : (Field.mines mines k).Survived ps)
    (h : minesPick m cell ((Field.mines mines k).after m ps) = .ok r) :
    PickResult m (.mines mines k) ps (.cell cell) r := by
  simp only [Field.after, Field.progress, minesPick, hs.mem_cells] at h
  split at h
  · cases h
  · next hnew =>
    refine ⟨rfl, fun _ => hnew, ?_⟩
    split at h
    · next hmine =>
      cases h
      exact Or.inl ⟨by simp [Field.safe, hmine], _, rfl⟩
    · next hsafe =>
      have hsafe' : (Field.mines mines k).safe ps.length (.cell cell) = true := by
        simp [Field.safe, hsafe]
      simp only [List.length_append, List.length_reverse, List.length_map, List.length_cons,
        List.length_nil, Nat.zero_add] at h
      split at h
      · next hfin =>
        cases h
        exact Or.inr (Or.inl ⟨hsafe', hfin, _, rfl⟩)
      · next hfin =>
        cases h
        refine Or.inr (Or.inr ⟨hsafe', hfin, ?_⟩)
        simp [Field.after, Field.progress, Field.multiplier, Pick.number]

theorem hiloGuess_spec {sequence : List Nat} {direction : HiloDirection}
    (h : hiloGuess m direction ((Field.hilo sequence).after m ps) = .ok r) :
    PickResult m (.hilo sequence) ps (.guess direction) r := by
  simp only [Field.after, Field.progress, hiloGuess] at h
  split at h
  case h_2 => cases h
  case h_1 current nextCard hcurrent hnext =>
    have hcur : sequence.getD ps.length 0 = current := by simp [List.getD, hcurrent]
    have hnxt : sequence.getD (ps.length + 1) 0 = nextCard := by simp [List.getD, hnext]
    refine ⟨rfl, nofun, ?_⟩
    simp only [Field.safe, hcur, hnxt]
    split at h
    · next hwrong =>
      cases h
      exact Or.inl ⟨hwrong, _, rfl⟩
    · next hright =>
      have hright' : correct direction (cardRank current) (cardRank nextCard) = true := by
        simpa using hright
      split at h
      · next hfin =>
        cases h
        simp only [Field.multiplier, cumMult, hcur]
        exact Or.inr (Or.inl ⟨hright', hfin, _, rfl⟩)
      · next hfin =>
        cases h
        refine Or.inr (Or.inr ⟨hright', hfin, ?_⟩)
        simp only [Field.after, Field.progress, Field.multiplier, cumMult, hcur, hnxt,
          List.length_cons]

theorem towerPick_spec {traps : List (List Nat)} {column : Nat}
    (h : towerPick m column ((Field.tower traps).after m ps) = .ok r) :
    PickResult m (.tower traps) ps (.column column) r := by
  simp only [Field.after, Field.progress, towerPick] at h
  split at h
  · cases h
  · next row hrow =>
    refine ⟨rfl, nofun, ?_⟩
    split at h
    · next htrap =>
      cases h
      exact Or.inl ⟨by simp [Field.safe, hrow, htrap], _, rfl⟩
    · next hsafe =>
      have hsafe' : (Field.tower traps).safe ps.length (.column column) = true := by
        simp [Field.safe, hrow, hsafe]
      split at h
      · next hfin =>
        cases h
        exact Or.inr (Or.inl ⟨hsafe', hfin, _, rfl⟩)
      · next hfin =>
        cases h
        refine Or.inr (Or.inr ⟨hsafe', hfin, ?_⟩)
        simp [Field.after, Field.progress, Field.multiplier, Pick.number]

/-- A pick that is not refused. -/
theorem apply_pick (hs : f.Survived ps) (h : (Move.pick p).apply m (f.after m ps) = .ok r) :
    PickResult m f ps p r := by
  cases p with
  | cell =>
    cases f with
    | mines => exact minesPick_spec hs h
    | hilo => cases h
    | tower => cases h
  | guess =>
    cases f with
    | mines => cases h
    | hilo => exact hiloGuess_spec h
    | tower => cases h
  | column =>
    cases f with
    | mines => cases h
    | hilo => cases h
    | tower => exact towerPick_spec h

/-- A cashout that is not refused banks the multiplier of the picks. -/
theorem apply_cashout {game : StatefulGame} (h : (Move.cashout game).apply m (f.after m ps) = .ok r) :
    game = f.game ∧ ps ≠ [] ∧ ∃ json, r = .settle true (f.multiplier m ps) json := by
  cases ps with
  | nil =>
    cases game with
    | mines | hilo | tower => cases f <;> cases h
  | cons =>
    cases game with
    | mines =>
      cases f with
      | mines =>
        simp only [Move.apply, Field.after, Field.progress, minesCashout, List.length_reverse,
          List.length_map] at h
        cases h
        exact ⟨rfl, by simp, _, rfl⟩
      | hilo => cases h
      | tower => cases h
    | hilo =>
      cases f with
      | mines => cases h
      | hilo =>
        cases h
        exact ⟨rfl, by simp, _, rfl⟩
      | tower => cases h
    | tower =>
      cases f with
      | mines => cases h
      | hilo => cases h
      | tower =>
        cases h
        exact ⟨rfl, by simp, _, rfl⟩

/-! ## Replaying the picks -/

/-- The picks played on a field by the code, as long as the round goes on. -/
def replay (m : Multipliers) (f : Field) : List Pick → Option (RoundState Json × ℚ)
  | [] => some (⟨.secret f, .visible f.opening⟩, 0)
  | p :: ps =>
      match replay m f ps with
      | some (st, _) =>
          match (Move.pick p).apply m st with
          | .ok (.goesOn st' x) => some (st', x)
          | _ => none
      | none => none

theorem replay_cons (h : replay m f (p :: ps) = some (st, x)) :
    ∃ st₀ x₀, replay m f ps = some (st₀, x₀) ∧ (Move.pick p).apply m st₀ = .ok (.goesOn st x) := by
  simp only [replay] at h
  split at h
  · next st₀ x₀ hps =>
    split at h
    · next st' x' happly =>
      cases h
      exact ⟨st₀, x₀, hps, happly⟩
    · cases h
  · cases h

theorem replay_step {st₀ : RoundState Json} {x₀ : ℚ} (h : replay m f ps = some (st₀, x₀))
    (happly : (Move.pick p).apply m st₀ = .ok (.goesOn st x)) :
    replay m f (p :: ps) = some (st, x) := by
  simp only [replay, h, happly]

/-- Replayed picks are safe, and the state is what they have led to. -/
theorem replay_spec (h : replay m f ps = some (st, x)) :
    f.Survived ps ∧ st = f.after m ps ∧ x = f.multiplier m ps := by
  induction ps generalizing st x with
  | nil =>
    cases h
    exact ⟨trivial, by rw [Field.after, Field.progress_nil], by cases f <;> rfl⟩
  | cons p ps ih =>
    obtain ⟨_, _, hps, happly⟩ := replay_cons h
    obtain ⟨hs, rfl, -⟩ := ih hps
    obtain ⟨hgame, hnew, hcase⟩ := apply_pick hs happly
    rcases hcase with ⟨-, json, heq⟩ | ⟨-, -, _, heq⟩ | ⟨hsafe, -, heq⟩
    · cases heq
    · cases heq
    · cases heq
      exact ⟨⟨hgame, hnew, hsafe, hs⟩, rfl, rfl⟩

/-! ## What the picks reveal -/

/-- The two fields show the same where the picks look: the cells and columns
picked, and the cards up to the last guess. -/
def Agrees : Field → Field → List Pick → Prop
  | .mines ms k, .mines ms' k', ps => k = k' ∧ ∀ cell, .cell cell ∈ ps → (cell ∈ ms ↔ cell ∈ ms')
  | .hilo sequence, .hilo sequence', ps => ∀ i ≤ ps.length, sequence[i]? = sequence'[i]?
  | .tower traps, .tower traps', ps => ∀ i column, ps.reverse[i]? = some (.column column) →
      (traps[i]? = none ↔ traps'[i]? = none) ∧
        (column ∈ traps.getD i [] ↔ column ∈ traps'.getD i [])
  | _, _, _ => False

theorem Agrees.of_cons (h : Agrees f g (p :: ps)) : Agrees f g ps := by
  cases f with
  | mines =>
    cases g with
    | mines => exact ⟨h.1, fun cell hc => h.2 cell (List.mem_cons_of_mem _ hc)⟩
    | hilo => exact h
    | tower => exact h
  | hilo =>
    cases g with
    | mines => exact h
    | hilo =>
      intro i hi
      exact h i (Nat.le_succ_of_le hi)
    | tower => exact h
  | tower =>
    cases g with
    | mines => exact h
    | hilo => exact h
    | tower =>
      intro i column hi
      refine h i column ?_
      rw [List.reverse_cons, List.getElem?_append_left (List.getElem?_eq_some_iff.mp hi).1]
      exact hi

theorem minesPick_agrees {ms ms' : List Nat} {k cell : Nat} {v : Json}
    (hcell : cell ∈ ms ↔ cell ∈ ms')
    (h : minesPick m cell ⟨.secret (.mines ms k), v⟩ = .ok (.goesOn st x)) :
    minesPick m cell ⟨.secret (.mines ms' k), v⟩ =
      .ok (.goesOn ⟨.secret (.mines ms' k), st.visible⟩ x) := by
  cases v with
  | visible progress =>
    cases progress with
    | mines =>
      simp only [minesPick, ← hcell] at h ⊢
      split at h
      · cases h
      · next hnew =>
        split at h
        · cases h
        · next hsafe =>
          split at h
          · cases h
          · next hfin =>
            cases h
            simp only [if_neg hnew, if_neg hsafe, if_neg hfin]
    | hilo => cases h
    | tower => cases h
  | secret | result | settled => cases h

theorem hiloGuess_agrees {sequence sequence' : List Nat} {index card rank steps : Nat} {cum : ℚ}
    {maxSteps : Nat} {direction : HiloDirection} (hcur : sequence[index]? = sequence'[index]?)
    (hnext : sequence[index + 1]? = sequence'[index + 1]?)
    (h : hiloGuess m direction
      ⟨.secret (.hilo sequence), .visible (.hilo index card rank steps cum maxSteps)⟩ =
        .ok (.goesOn st x)) :
    hiloGuess m direction
      ⟨.secret (.hilo sequence'), .visible (.hilo index card rank steps cum maxSteps)⟩ =
        .ok (.goesOn ⟨.secret (.hilo sequence'), st.visible⟩ x) := by
  simp only [hiloGuess, ← hcur, ← hnext] at h ⊢
  split at h
  case h_2 => cases h
  case h_1 =>
    split at h
    · cases h
    · next hright =>
      split at h
      · cases h
      · next hfin =>
        cases h
        simp only [if_neg hright, if_neg hfin]

theorem towerPick_agrees {traps traps' : List (List Nat)} {rows columns safePerRow row : Nat}
    {picks : List Nat} {column : Nat} (hnone : traps[row]? = none ↔ traps'[row]? = none)
    (hrow : column ∈ traps.getD row [] ↔ column ∈ traps'.getD row [])
    (h : towerPick m column
      ⟨.secret (.tower traps), .visible (.tower rows columns safePerRow row picks)⟩ =
        .ok (.goesOn st x)) :
    towerPick m column
      ⟨.secret (.tower traps'), .visible (.tower rows columns safePerRow row picks)⟩ =
        .ok (.goesOn ⟨.secret (.tower traps'), st.visible⟩ x) := by
  simp only [towerPick] at h ⊢
  cases ht : traps[row]? with
  | none =>
    rw [ht] at h
    cases h
  | some =>
    cases ht' : traps'[row]? with
    | none => exact absurd (hnone.mpr ht') (by simp [ht])
    | some =>
      simp only [List.getD, ht, ht', Option.getD_some] at hrow
      simp only [ht, hrow] at h ⊢
      split at h
      · cases h
      · next hsafe =>
        split at h
        · cases h
        · next hfin =>
          cases h
          simp only [if_neg hsafe, if_neg hfin]

/-- Every field that agrees with the round's own on what the picks reveal
lets the same picks through and shows the same. -/
theorem replay_agrees (hag : Agrees f g ps) (h : replay m f ps = some (st, x)) :
    replay m g ps = some (⟨.secret g, st.visible⟩, x) := by
  induction ps generalizing st x with
  | nil =>
    cases h
    simp only [replay, Option.some.injEq, Prod.mk.injEq, RoundState.mk.injEq, true_and, and_true,
      Json.visible.injEq]
    cases f with
    | mines =>
      cases g with
      | mines => rw [Field.opening, Field.opening, hag.1]
      | hilo => cases hag
      | tower => cases hag
    | hilo =>
      cases g with
      | mines => cases hag
      | hilo => simp only [Field.opening, List.getD, hag 0 (Nat.zero_le _)]
      | tower => cases hag
    | tower =>
      cases g with
      | mines => cases hag
      | hilo => cases hag
      | tower => rfl
  | cons p ps ih =>
    obtain ⟨_, _, hps, happly⟩ := replay_cons h
    obtain ⟨hs, rfl, -⟩ := replay_spec hps
    refine replay_step (ih hag.of_cons hps) ?_
    obtain ⟨hgame, -⟩ := apply_pick hs happly
    cases f with
    | mines ms k =>
      cases g with
      | mines =>
        obtain ⟨rfl, hcells⟩ := hag
        cases p with
        | cell cell =>
          have hmove : minesPick m cell
              ⟨.secret (.mines ms k), ((Field.mines ms k).after m ps).visible⟩ =
                .ok (.goesOn st x) := happly
          exact minesPick_agrees (hcells cell List.mem_cons_self) hmove
        | guess | column => cases hgame
      | hilo => cases hag
      | tower => cases hag
    | hilo sequence =>
      cases g with
      | mines => cases hag
      | hilo =>
        cases p with
        | cell => cases hgame
        | guess direction =>
          have hmove : hiloGuess m direction ⟨.secret (.hilo sequence), .visible
              (.hilo ps.length (sequence.getD ps.length 0) (cardRank (sequence.getD ps.length 0))
                ps.length (cumMult m sequence ps) HILO.MAX_STEPS)⟩ = .ok (.goesOn st x) := happly
          exact hiloGuess_agrees (hag _ (Nat.le_succ _)) (hag _ le_rfl) hmove
        | column => cases hgame
      | tower => cases hag
    | tower traps =>
      cases g with
      | mines => cases hag
      | hilo => cases hag
      | tower =>
        cases p with
        | cell | guess => cases hgame
        | column column =>
          have hlast := hag ps.length column (by simp)
          have hmove : towerPick m column ⟨.secret (.tower traps), .visible
              (.tower TOWER.ROWS TOWER.COLUMNS TOWER.SAFE_PER_ROW ps.length
                (ps.map (·.number)).reverse)⟩ = .ok (.goesOn st x) := happly
          exact towerPick_agrees hlast.1 hlast.2 hmove

end Scadium.Games.Instant
