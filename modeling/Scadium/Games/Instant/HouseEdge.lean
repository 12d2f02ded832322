/-
Scadium.Games.Instant.HouseEdge — no strategy beats the edge of the step games.

What a round is worth to the player never rises on average: on a mine field
and in a tower the next multiplier is at most the last one over the chance to
survive the pick, in hilo each guess costs the edge once more. Each of the
three is a potential of `Scadium.Lib.HiddenGame`, over the layouts or the
cards that fit what the player has seen.
-/
import Mathlib.Data.Finset.Sort
import Mathlib.Data.Nat.Cast.Order.Field
import Mathlib.Data.Nat.Choose.Basic
import Mathlib.Order.Interval.Finset.Nat
import Mathlib.Tactic.FieldSimp
import Mathlib.Tactic.LinearCombination
import Scadium.Games.Instant.Shapes
import Scadium.Lib.HiddenGame

namespace Scadium.Games.Instant.Shape

open Finset BigOperators
open Scadium.Lib Scadium.Lib.HiddenGame Scadium.Prisma Scadium.Shared

variable {b : Shape} {stake : Nat} {strategy : List Json → Move}

/-! ## Payments -/

/-- A multiplier of whole hundredths. -/
def Hundredths (x : ℚ) : Prop := ∃ m : Nat, x = m / 100

theorem hundredths_floor2 {x : ℚ} (hx : 0 ≤ x) : Hundredths (floor2 x) := by
  have hfloor : 0 ≤ ⌊x * 100⌋ := Int.floor_nonneg.mpr (by positivity)
  obtain ⟨m, hm⟩ := Int.eq_ofNat_of_zero_le hfloor
  exact ⟨m, by rw [floor2, hm, Int.cast_natCast]⟩

theorem floor2_le (x : ℚ) : floor2 x ≤ x := by
  rw [floor2, div_le_iff₀ (by norm_num)]
  exact Int.floor_le (x * 100)

theorem floor2_nonneg {x : ℚ} (hx : 0 ≤ x) : 0 ≤ floor2 x := by
  obtain ⟨m, hm⟩ := hundredths_floor2 hx
  rw [hm]
  positivity

/-- A round is paid no more than its multiplier. -/
theorem payoutLamports_le {x : ℚ} (hx : Hundredths x) (won : Bool) :
    (payoutLamports stake won x : ℚ) ≤ stake * x := by
  obtain ⟨m, rfl⟩ := hx
  unfold payoutLamports
  split
  · have hround : ⌊((m : ℚ) / 100 * 100 + 1 / 2)⌋.toNat = m := by
      rw [div_mul_cancel₀ _ (by norm_num), Int.floor_natCast_add]
      norm_num
    rw [hround]
    calc ((stake * m / 100 : ℕ) : ℚ) ≤ ((stake * m : ℕ) : ℚ) / (100 : ℕ) := Nat.cast_div_le
      _ = stake * (m / 100) := by push_cast; ring
  · positivity

theorem payoutLamports_lost (x : ℚ) : payoutLamports stake false x = 0 := by
  simp [payoutLamports]

/-! ## Answers -/

/-- What a request shows, on the field `f`. -/
def answer (b : Shape) (stake : Nat) (f : Field) (v : Json) (move : Move) : Answer Json :=
  match b.request move ⟨.secret f, v⟩ with
  | .ok (.goesOn st _) => .shows st.visible
  | .ok (.settle won x _) => .pays (payoutLamports stake won x)
  | .error _ => .refuses

/-- A step that goes on keeps the field. -/
def Keeps (f : Field) : StepResult Json → Prop
  | .goesOn st _ => st.secret = .secret f
  | .settle .. => True

theorem minesPick_keeps {cell : Nat} {f : Field} {v : Json} {r : StepResult Json}
    (h : b.minesPick cell ⟨.secret f, v⟩ = .ok r) : Keeps f r := by
  unfold minesPick at h
  split at h
  case h_1 mines k k' cells revealed heq =>
    cases heq
    split at h
    · cases h
    · split at h
      · cases h
        trivial
      · simp only at h
        split at h <;> cases h
        · trivial
        · rfl
  case h_2 => cases h

theorem hiloGuess_keeps {direction : HiloDirection} {f : Field} {v : Json} {r : StepResult Json}
    (h : b.hiloGuess direction ⟨.secret f, v⟩ = .ok r) : Keeps f r := by
  unfold hiloGuess at h
  split at h
  case h_1 heq =>
    cases heq
    split at h
    · simp only at h
      split at h
      · cases h
        trivial
      · split at h <;> cases h
        · trivial
        · rfl
    · cases h
  case h_2 => cases h

theorem towerPick_keeps {column : Nat} {f : Field} {v : Json} {r : StepResult Json}
    (h : b.towerPick column ⟨.secret f, v⟩ = .ok r) : Keeps f r := by
  unfold towerPick at h
  split at h
  case h_1 heq =>
    cases heq
    split at h
    · cases h
    · split at h
      · cases h
        trivial
      · simp only at h
        split at h <;> cases h
        · trivial
        · rfl
  case h_2 => cases h

theorem request_keeps {move : Move} {f : Field} {v : Json} {r : StepResult Json}
    (h : b.request move ⟨.secret f, v⟩ = .ok r) : Keeps f r := by
  obtain ⟨u, -, happly⟩ := Committed.bind_ok.mp h
  cases move with
  | pick p =>
    cases p with
    | cell => exact minesPick_keeps happly
    | guess => exact hiloGuess_keeps happly
    | column => exact towerPick_keeps happly
  | cashout game =>
    cases game
    all_goals
      simp only [apply, minesCashout, hiloCashout, towerCashout] at happly
      split at happly
      · split at happly
        · cases happly
        · cases happly
          trivial
      · cases happly

/-- A round is played against its field. -/
theorem play_eq (n : Nat) (f : Field) (v : Json) (seen : List Json) :
    (b.play stake strategy n ⟨.secret f, v⟩ seen : ℚ) =
      HiddenGame.play (b.answer stake) strategy f n v seen := by
  induction n generalizing v seen with
  | zero => simp [Shape.play, HiddenGame.play]
  | succ n ih =>
    cases h : b.request (strategy (v :: seen)) ⟨.secret f, v⟩ with
    | error =>
      simp only [Shape.play, HiddenGame.play, answer, h]
      exact ih v (v :: seen)
    | ok r =>
      cases r with
      | settle => simp only [Shape.play, HiddenGame.play, answer, h]
      | goesOn st =>
        obtain ⟨secret, v'⟩ := st
        have hsecret : secret = .secret f := request_keeps h
        subst hsecret
        simp only [Shape.play, HiddenGame.play, answer, h]
        exact ih v' (v :: seen)

/-- A potential of a game bounds what its rounds are paid. -/
theorem payout_le {Ω : Type} {Fair : Json → Finset Ω → Prop} {V : Json → ℚ} {D : Finset Ω}
    (field : Ω → Field) (h : Bounds (fun ω => b.answer stake (field ω)) Fair V) (he : b.edge ≤ 1)
    (n : Nat) (opening : Ω → Json)
    (hopening : ∀ ω ∈ D, .visible (b.opening (field ω)) = opening ω)
    (hfair : ∀ ω ∈ D, Fair (opening ω) {ω' ∈ D | opening ω' = opening ω})
    (hV : ∀ ω ∈ D, V (opening ω) ≤ (1 - b.edge) * stake) :
    𝔼 ω ∈ D, (b.payout stake strategy n (field ω) : ℚ) ≤ (1 - b.edge) * stake := by
  have hc : 0 ≤ (1 - b.edge) * stake := mul_nonneg (by linarith) (Nat.cast_nonneg _)
  refine le_trans (le_of_eq ?_) (h.expect_le strategy n opening hc hfair hV)
  apply expect_congr rfl
  intro ω hω
  rw [play_comp, ← hopening ω hω]
  exact play_eq n (field ω) _ []

/-! ## Mines -/

section Mines

variable {mines picks cell : Nat} {revealed : List Nat} {S : Finset Nat}

def mineBoard (mines : Nat) (S : Finset Nat) : Field := .mines (S.sort (· ≤ ·)) mines

def mineView (b : Shape) (mines : Nat) (revealed : List Nat) : Json :=
  .visible (.mines mines b.cells revealed)

theorem answer_cell (hcell : cell < b.cells) (hnew : cell ∉ revealed) :
    b.answer stake (mineBoard mines S) (b.mineView mines revealed) (.pick (.cell cell)) =
      if cell ∈ S then .pays 0
      else if b.cells - mines ≤ revealed.length + 1 then
        .pays (payoutLamports stake true (b.minesMultiplier mines (revealed.length + 1)))
      else .shows (b.mineView mines (revealed ++ [cell])) := by
  have hrequest : b.request (.pick (.cell cell))
      ⟨.secret (mineBoard mines S), b.mineView mines revealed⟩ =
        b.minesPick cell ⟨.secret (mineBoard mines S), b.mineView mines revealed⟩ := by
    simp [request, check, Committed.ensure, hcell, apply, bind, Except.bind]
  rw [answer, hrequest]
  simp only [minesPick, mineBoard, mineView, if_neg hnew, mem_sort, List.length_append,
    List.length_singleton]
  by_cases hmine : cell ∈ S
  · simp [hmine, payoutLamports_lost]
  · by_cases hlast : b.cells - mines ≤ revealed.length + 1
    · simp [hmine, hlast]
    · simp [hmine, hlast]

/-- The requests that do not look at the field. -/
theorem answer_mines (b : Shape) (stake mines : Nat) (revealed : List Nat) (move : Move) :
    (∃ cell, cell < b.cells ∧ cell ∉ revealed ∧ move = .pick (.cell cell)) ∨
      (∀ S, b.answer stake (mineBoard mines S) (b.mineView mines revealed) move = .refuses) ∨
      (0 < revealed.length ∧
        ∀ S, b.answer stake (mineBoard mines S) (b.mineView mines revealed) move =
          .pays (payoutLamports stake true (b.minesMultiplier mines revealed.length))) := by
  cases move with
  | pick p =>
    cases p with
    | cell cell =>
      by_cases hcell : cell < b.cells
      · by_cases hnew : cell ∈ revealed
        · right; left
          intro S
          simp [answer, request, check, Committed.ensure, hcell, apply, bind, Except.bind,
            minesPick, mineBoard, mineView, hnew]
        · exact .inl ⟨cell, hcell, hnew, rfl⟩
      · right; left
        intro S
        simp [answer, request, check, Committed.ensure, hcell, bind, Except.bind]
    | guess => exact .inr (.inl fun S => rfl)
    | column c =>
      right; left
      intro S
      by_cases hc : c < b.columns
      · simp [answer, request, check, Committed.ensure, hc, apply, bind, Except.bind, towerPick,
          mineBoard, mineView]
      · simp [answer, request, check, Committed.ensure, hc, bind, Except.bind]
  | cashout game =>
    cases game with
    | mines =>
      by_cases hnone : revealed.length < 1
      · right; left
        intro S
        simp [answer, request, check, apply, bind, Except.bind, minesCashout, mineBoard, mineView,
          hnone]
      · right; right
        refine ⟨by omega, ?_⟩
        intro S
        simp [answer, request, check, apply, bind, Except.bind, minesCashout, mineBoard, mineView,
          hnone, multipliers]
    | hilo | tower => exact .inr (.inl fun S => rfl)

theorem survival_succ (b : Shape) (mines picks : Nat) : b.survival mines (picks + 1) =
    b.survival mines picks * (((b.cells : ℚ) - mines - picks) / (b.cells - picks)) := by
  simp only [survival, List.range_succ, List.foldl_append, List.foldl_cons, List.foldl_nil]

theorem survival_pos (h : mines + picks ≤ b.cells) : 0 < b.survival mines picks := by
  induction picks with
  | zero => simp [survival]
  | succ picks ih =>
    rw [survival_succ]
    have hcells : ((mines + (picks + 1) : ℕ) : ℚ) ≤ b.cells := by exact_mod_cast h
    push_cast at hcells
    have hsafe : (0 : ℚ) < (b.cells : ℚ) - mines - picks := by linarith
    have hleft : (0 : ℚ) < (b.cells : ℚ) - picks := by
      have hmines : (0 : ℚ) ≤ mines := Nat.cast_nonneg mines
      linarith
    exact mul_pos (ih (by omega)) (div_pos hsafe hleft)

/-- What a round with so many safe picks is worth. -/
def mineWorth (b : Shape) (stake mines picks : Nat) : ℚ :=
  stake * ((1 - b.edge) / b.survival mines picks)

theorem minesMultiplier_le (he : b.edge ≤ 1) (h : mines + picks ≤ b.cells) :
    (payoutLamports stake true (b.minesMultiplier mines picks) : ℚ) ≤
      b.mineWorth stake mines picks := by
  have hpos := survival_pos h
  have hx : 0 ≤ (1 - b.edge) / b.survival mines picks := div_nonneg (by linarith) hpos.le
  rw [minesMultiplier, if_neg (not_le.mpr hpos)]
  calc (payoutLamports stake true (floor2 ((1 - b.edge) / b.survival mines picks)) : ℚ)
      ≤ stake * floor2 ((1 - b.edge) / b.survival mines picks) :=
        payoutLamports_le (hundredths_floor2 hx) true
    _ ≤ b.mineWorth stake mines picks :=
        mul_le_mul_of_nonneg_left (floor2_le _) (Nat.cast_nonneg _)

/-- The cells not revealed yet. -/
def unrevealed (b : Shape) (revealed : List Nat) : Finset Nat :=
  range b.cells \ revealed.toFinset

/-- The layouts that leave the revealed cells free. -/
def MinesFair (b : Shape) (mines : Nat) (v : Json) (D : Finset (Finset Nat)) : Prop :=
  ∃ revealed, v = b.mineView mines revealed ∧ revealed.Nodup ∧ (∀ c ∈ revealed, c < b.cells) ∧
    D = (b.unrevealed revealed).powersetCard mines

theorem length_le (hnodup : revealed.Nodup) (hcells : ∀ c ∈ revealed, c < b.cells) :
    revealed.length ≤ b.cells := by
  have hall : revealed.toFinset ⊆ range b.cells := by
    intro c hc
    exact mem_range.mpr (hcells c (List.mem_toFinset.mp hc))
  have hle := card_le_card hall
  rwa [List.toFinset_card_of_nodup hnodup, card_range] at hle

theorem card_unrevealed (hnodup : revealed.Nodup) (hcells : ∀ c ∈ revealed, c < b.cells) :
    #(b.unrevealed revealed) = b.cells - revealed.length := by
  have hsub : revealed.toFinset ⊆ range b.cells := by
    intro c hc
    exact mem_range.mpr (hcells c (List.mem_toFinset.mp hc))
  rw [unrevealed, card_sdiff_of_subset hsub, card_range, List.toFinset_card_of_nodup hnodup]

/-- The layouts that a safe pick leaves. -/
theorem filter_safe (revealed : List Nat) (cell : Nat) :
    {S ∈ (b.unrevealed revealed).powersetCard mines | cell ∉ S} =
      (b.unrevealed (revealed ++ [cell])).powersetCard mines := by
  have hcells : b.unrevealed (revealed ++ [cell]) = (b.unrevealed revealed).erase cell := by
    ext c
    simp only [unrevealed, mem_sdiff, mem_range, List.toFinset_append, mem_union,
      List.mem_toFinset, List.mem_singleton, mem_erase]
    tauto
  rw [hcells]
  ext S
  simp only [mem_filter, mem_powersetCard, subset_erase]
  tauto

theorem nodup_concat (hnodup : revealed.Nodup) (hnew : cell ∉ revealed) :
    (revealed ++ [cell]).Nodup := by
  rw [List.nodup_append]
  refine ⟨hnodup, List.nodup_singleton cell, ?_⟩
  rintro c hc _ hcell rfl
  exact hnew (List.mem_singleton.mp hcell ▸ hc)

/-- Before and after a safe pick the layouts that are left are worth the same
in all. -/
theorem card_mul_mineWorth {r n : Nat} (hcells : b.cells = r + n + 1) (hfit : mines ≤ n) :
    (n.choose mines : ℚ) * b.mineWorth stake mines (r + 1) =
      ((n + 1).choose mines : ℚ) * b.mineWorth stake mines r := by
  have hsurvival : b.survival mines r ≠ 0 := (survival_pos (by omega)).ne'
  have hchoose : (n.choose mines : ℚ) * (n + 1) = (n + 1).choose mines * ((n : ℚ) + 1 - mines) := by
    have hnat := Nat.choose_mul_succ_eq n mines
    have hcast : ((n + 1 - mines : ℕ) : ℚ) = (n : ℚ) + 1 - mines := by
      rw [Nat.cast_sub (by omega)]
      push_cast
      ring
    rw [← hcast]
    exact_mod_cast hnat
  have hsafe : (b.cells : ℚ) - mines - r = n + 1 - mines := by
    rw [hcells]
    push_cast
    ring
  have hleft : (b.cells : ℚ) - r = n + 1 := by
    rw [hcells]
    push_cast
    ring
  have hn : (n : ℚ) + 1 ≠ 0 := by positivity
  have hpos : (n : ℚ) + 1 - mines ≠ 0 := by
    have hfit' : (mines : ℚ) ≤ n := by exact_mod_cast hfit
    linarith
  unfold mineWorth
  rw [survival_succ, hsafe, hleft]
  field_simp
  linear_combination stake * (1 - b.edge) * hchoose

theorem mineWorth_nonneg (he : b.edge ≤ 1) (h : mines + picks ≤ b.cells) :
    0 ≤ b.mineWorth stake mines picks :=
  mul_nonneg (Nat.cast_nonneg _) (div_nonneg (by linarith) (survival_pos h).le)

/-- The potential of a mine field. -/
def minesPotential (b : Shape) (stake mines : Nat) : Json → ℚ
  | .visible (.mines _ _ revealed) => b.mineWorth stake mines revealed.length
  | _ => 0

/-- The layouts left are as many as their number of cells says. -/
theorem fits (hnodup : revealed.Nodup) (hcells : ∀ c ∈ revealed, c < b.cells)
    (hS : S ∈ (b.unrevealed revealed).powersetCard mines) :
    mines + revealed.length ≤ b.cells := by
  obtain ⟨hsub, hcard⟩ := mem_powersetCard.mp hS
  have hlength := length_le hnodup hcells
  have hle := card_le_card hsub
  rw [hcard, card_unrevealed hnodup hcells] at hle
  omega

/-- One layout's answer to a pick is worth at most this. -/
theorem answer_cell_worth (he : b.edge ≤ 1) (hcell : cell < b.cells) (hnew : cell ∉ revealed)
    (hnodup : revealed.Nodup) (hcells : ∀ c ∈ revealed, c < b.cells)
    (hS : S ∈ (b.unrevealed revealed).powersetCard mines) :
    (b.answer stake (mineBoard mines S) (b.mineView mines revealed) (.pick (.cell cell))).worth
        (b.minesPotential stake mines) (b.mineView mines revealed) ≤
      if cell ∉ S then b.mineWorth stake mines (revealed.length + 1) else 0 := by
  rw [answer_cell hcell hnew]
  by_cases hmine : cell ∈ S
  · simp [hmine, Answer.worth]
  · have hS' : S ∈ (b.unrevealed (revealed ++ [cell])).powersetCard mines := by
      rw [← filter_safe]
      exact mem_filter.mpr ⟨hS, hmine⟩
    have hfit := fits (nodup_concat hnodup hnew) (by
      intro c hc
      cases List.mem_append.mp hc with
      | inl hold => exact hcells c hold
      | inr hlast => exact List.mem_singleton.mp hlast ▸ hcell) hS'
    rw [List.length_append, List.length_singleton] at hfit
    rw [if_neg hmine, if_pos hmine]
    split
    · exact minesMultiplier_le he hfit
    · simp [Answer.worth, minesPotential, mineView]

theorem minesFair_looks (he : b.edge ≤ 1) (hcell : cell < b.cells) (hnew : cell ∉ revealed)
    (hnodup : revealed.Nodup) (hcells : ∀ c ∈ revealed, c < b.cells)
    (hne : ((b.unrevealed revealed).powersetCard mines).Nonempty) :
    Looks (fun S => b.answer stake (mineBoard mines S)) (b.MinesFair mines)
      (b.minesPotential stake mines) (b.mineView mines revealed)
      ((b.unrevealed revealed).powersetCard mines) (.pick (.cell cell)) := by
  have hnodup' := nodup_concat hnodup hnew
  have hcells' : ∀ c ∈ revealed ++ [cell], c < b.cells := by
    intro c hc
    cases List.mem_append.mp hc with
    | inl hold => exact hcells c hold
    | inr hlast => exact List.mem_singleton.mp hlast ▸ hcell
  constructor
  · intro S _
    rw [answer_cell hcell hnew]
    split
    · simp
    · split <;> simp
  · refine le_trans (sum_le_sum fun S hS => answer_cell_worth he hcell hnew hnodup hcells hS) ?_
    rw [← sum_filter, sum_const, nsmul_eq_mul, filter_safe, card_powersetCard, card_powersetCard,
      card_unrevealed hnodup hcells, card_unrevealed hnodup' hcells', List.length_append,
      List.length_singleton]
    obtain ⟨S, hS⟩ := hne
    have hfit := fits hnodup hcells hS
    have hlength := length_le hnodup' hcells'
    rw [List.length_append, List.length_singleton] at hlength
    obtain ⟨n, _⟩ := Nat.exists_eq_add_of_le hlength
    have hafter : b.cells - (revealed.length + 1) = n := by omega
    have hbefore : b.cells - revealed.length = n + 1 := by omega
    rw [hafter, hbefore]
    by_cases hmore : mines ≤ n
    · exact (card_mul_mineWorth (by omega) hmore).le
    · rw [Nat.choose_eq_zero_of_lt (by omega), Nat.cast_zero, zero_mul]
      exact mul_nonneg (Nat.cast_nonneg _) (mineWorth_nonneg he hfit)
  · intro S hS s' hshows
    rw [answer_cell hcell hnew] at hshows
    split at hshows
    · cases hshows
    · split at hshows
      · cases hshows
      case isFalse hgoes =>
        cases hshows
        refine ⟨revealed ++ [cell], rfl, hnodup', hcells', ?_⟩
        rw [← filter_safe]
        apply filter_congr
        intro S' _
        rw [answer_cell hcell hnew, if_neg hgoes]
        by_cases hmine : cell ∈ S' <;> simp [hmine]

theorem mines_bounds (he : b.edge ≤ 1) :
    Bounds (fun S => b.answer stake (mineBoard mines S)) (b.MinesFair mines)
      (b.minesPotential stake mines) := by
  apply Bounds.of_looks
  · rintro v D ⟨revealed, rfl, hnodup, hcells, rfl⟩ ⟨S, hS⟩
    exact mineWorth_nonneg he (fits hnodup hcells hS)
  · rintro v D move ⟨revealed, rfl, hnodup, hcells, rfl⟩ hne
    rcases answer_mines b stake mines revealed move with hpick | hrefuses | ⟨-, hpays⟩
    · obtain ⟨_, hcell, hnew, rfl⟩ := hpick
      exact .inr (.inr (minesFair_looks he hcell hnew hnodup hcells hne))
    · exact .inl fun S _ => hrefuses S
    · obtain ⟨S, hS⟩ := hne
      exact .inr (.inl ⟨_, minesMultiplier_le he (fits hnodup hcells hS), fun S _ => hpays S⟩)

/-- The layouts of a start. -/
def mineFields (b : Shape) (mines : Nat) : Finset (Finset Nat) := (range b.cells).powersetCard mines

theorem mines_edge (he : b.edge ≤ 1) (n : Nat) :
    𝔼 S ∈ b.mineFields mines, (b.payout stake strategy n (mineBoard mines S) : ℚ) ≤
      (1 - b.edge) * stake := by
  refine payout_le (mineBoard mines) (mines_bounds he) he n (fun _ => b.mineView mines []) ?_ ?_ ?_
  · intro S _
    rfl
  · intro S _
    rw [filter_true_of_mem fun _ _ => rfl]
    exact ⟨[], rfl, List.nodup_nil, by simp, by simp [unrevealed, mineFields]⟩
  · intro S _
    simp [minesPotential, mineView, mineWorth, survival, mul_comm]

end Mines

/-! ## Tower -/

section Tower

variable {column row : Nat} {picks : List Nat}

/-- The traps are what is not safe. -/
def towerBoard (b : Shape) (safe : Fin b.rows → Finset Nat) : Field :=
  .tower (List.ofFn fun r => (range b.columns \ safe r).sort (· ≤ ·))

def towerView (b : Shape) (row : Nat) (picks : List Nat) : Json :=
  .visible (.tower b.rows b.columns b.safePerRow row picks)

theorem answer_column {safe : Fin b.rows → Finset Nat} (hcolumn : column < b.columns)
    (hrow : row < b.rows) :
    b.answer stake (b.towerBoard safe) (b.towerView row picks) (.pick (.column column)) =
      if column ∈ safe ⟨row, hrow⟩ then
        if b.rows ≤ row + 1 then .pays (payoutLamports stake true (b.towerMultiplier (row + 1)))
        else .shows (b.towerView (row + 1) (picks ++ [column]))
      else .pays 0 := by
  have hrequest : b.request (.pick (.column column))
      ⟨.secret (b.towerBoard safe), b.towerView row picks⟩ =
        b.towerPick column ⟨.secret (b.towerBoard safe), b.towerView row picks⟩ := by
    simp [request, check, Committed.ensure, hcolumn, apply, bind, Except.bind]
  rw [answer, hrequest]
  simp only [towerPick, towerBoard, towerView, List.getElem?_ofFn, hrow, dite_true, mem_sort,
    mem_sdiff, mem_range, hcolumn, true_and]
  by_cases hsafe : column ∈ safe ⟨row, hrow⟩
  · by_cases hlast : b.rows ≤ row + 1
    · simp [hsafe, hlast]
    · simp [hsafe, hlast]
  · simp [hsafe, payoutLamports_lost]

/-- The requests that do not look at the field. -/
theorem answer_tower (b : Shape) (stake row : Nat) (picks : List Nat) (move : Move) :
    (∃ column, column < b.columns ∧ row < b.rows ∧ move = .pick (.column column)) ∨
      (∀ safe, b.answer stake (b.towerBoard safe) (b.towerView row picks) move = .refuses) ∨
      ∀ safe, b.answer stake (b.towerBoard safe) (b.towerView row picks) move =
        .pays (payoutLamports stake true (b.towerMultiplier row)) := by
  cases move with
  | pick p =>
    cases p with
    | cell c =>
      right; left
      intro safe
      by_cases hc : c < b.cells
      · simp [answer, request, check, Committed.ensure, hc, apply, bind, Except.bind, minesPick,
          towerBoard, towerView]
      · simp [answer, request, check, Committed.ensure, hc, bind, Except.bind]
    | guess => exact .inr (.inl fun safe => rfl)
    | column column =>
      by_cases hcolumn : column < b.columns
      · by_cases hrow : row < b.rows
        · exact .inl ⟨column, hcolumn, hrow, rfl⟩
        · right; left
          intro safe
          simp [answer, request, check, Committed.ensure, hcolumn, apply, bind, Except.bind,
            towerPick, towerBoard, towerView, hrow]
      · right; left
        intro safe
        simp [answer, request, check, Committed.ensure, hcolumn, bind, Except.bind]
  | cashout game =>
    cases game with
    | tower =>
      by_cases hnone : row < 1
      · right; left
        intro safe
        simp [answer, request, check, apply, bind, Except.bind, towerCashout, towerBoard,
          towerView, hnone]
      · right; right
        intro safe
        simp [answer, request, check, apply, bind, Except.bind, towerCashout, towerBoard,
          towerView, hnone, multipliers]
    | mines | hilo => exact .inr (.inl fun safe => rfl)

/-- What a round with so many rows climbed is worth. -/
def towerWorth (b : Shape) (stake row : Nat) : ℚ :=
  stake * ((1 - b.edge) * (b.columns / b.safePerRow) ^ row)

theorem towerMultiplier_le (he : b.edge ≤ 1) :
    (payoutLamports stake true (b.towerMultiplier row) : ℚ) ≤ b.towerWorth stake row := by
  have hx : 0 ≤ (1 - b.edge) * ((b.columns : ℚ) / b.safePerRow) ^ row :=
    mul_nonneg (by linarith) (by positivity)
  exact le_trans (payoutLamports_le (hundredths_floor2 hx) true)
    (mul_le_mul_of_nonneg_left (floor2_le _) (Nat.cast_nonneg _))

theorem towerWorth_nonneg (he : b.edge ≤ 1) : 0 ≤ b.towerWorth stake row :=
  mul_nonneg (Nat.cast_nonneg _) (mul_nonneg (by linarith) (by positivity))

/-- The safe sets of a row. -/
def safeSets (b : Shape) : Finset (Finset Nat) := (range b.columns).powersetCard b.safePerRow

/-- The chance of a column to be safe. -/
theorem card_safeSets (hcolumn : column < b.columns) :
    (#{T ∈ b.safeSets | column ∈ T} : ℚ) * b.columns = #b.safeSets * b.safePerRow := by
  obtain ⟨n, hn⟩ := Nat.exists_eq_succ_of_ne_zero (Nat.ne_zero_of_lt hcolumn)
  have hwithout : #{T ∈ b.safeSets | column ∉ T} = n.choose b.safePerRow := by
    have hcells : {T ∈ b.safeSets | column ∉ T} =
        ((range b.columns).erase column).powersetCard b.safePerRow := by
      ext T
      simp only [safeSets, mem_filter, mem_powersetCard, subset_erase]
      tauto
    rw [hcells, card_powersetCard, card_erase_of_mem (mem_range.mpr hcolumn), card_range, hn]
    rfl
  have hsum : (#{T ∈ b.safeSets | column ∈ T} : ℚ) + #{T ∈ b.safeSets | column ∉ T} =
      #b.safeSets := by
    exact_mod_cast card_filter_add_card_filter_not (s := b.safeSets) (fun T => column ∈ T)
  have hall : #b.safeSets = (n + 1).choose b.safePerRow := by
    rw [safeSets, card_powersetCard, card_range, hn]
  have hchoose := Nat.choose_mul_succ_eq n b.safePerRow
  rw [hwithout, hall] at hsum
  rw [hall, hn]
  by_cases hfit : b.safePerRow ≤ n + 1
  · have hcast : ((n + 1 - b.safePerRow : ℕ) : ℚ) = (n : ℚ) + 1 - b.safePerRow := by
      rw [Nat.cast_sub hfit]
      push_cast
      ring
    have hchoose' : (n.choose b.safePerRow : ℚ) * (n + 1) =
        (n + 1).choose b.safePerRow * ((n : ℚ) + 1 - b.safePerRow) := by
      rw [← hcast]
      exact_mod_cast hchoose
    push_cast
    linear_combination ((n : ℚ) + 1) * hsum - hchoose'
  · rw [Nat.choose_eq_zero_of_lt (by omega)] at hsum hall ⊢
    rw [card_eq_zero] at hall
    simp [hall]

def TowerFair (b : Shape) (v : Json) (D : Finset (Fin b.rows → Finset Nat)) : Prop :=
  ∃ row picks, v = b.towerView row picks ∧ ∀ j : Fin b.rows, row ≤ j → Unseen j b.safeSets D

def towerPotential (b : Shape) (stake : Nat) : Json → ℚ
  | .visible (.tower _ _ _ row _) => b.towerWorth stake row
  | _ => 0

/-- A row more, at the chance of its column. -/
theorem card_mul_towerWorth (he : b.edge ≤ 1) (hcolumn : column < b.columns) :
    (#{T ∈ b.safeSets | column ∈ T} : ℚ) * b.towerWorth stake (row + 1) ≤
      #b.safeSets * b.towerWorth stake row := by
  have hcard := card_safeSets hcolumn
  have hcolumns : (b.columns : ℚ) ≠ 0 := by
    have hpos : (0 : ℚ) < b.columns := by exact_mod_cast Nat.zero_lt_of_lt hcolumn
    exact hpos.ne'
  by_cases hsafe : (b.safePerRow : ℚ) = 0
  · rw [hsafe, mul_zero] at hcard
    have hnone := (mul_eq_zero.mp hcard).resolve_right hcolumns
    rw [hnone, zero_mul]
    exact mul_nonneg (Nat.cast_nonneg _) (towerWorth_nonneg he)
  · have hratio : (#{T ∈ b.safeSets | column ∈ T} : ℚ) * (b.columns / b.safePerRow) =
        #b.safeSets := by
      rw [← mul_div_assoc, hcard, mul_div_cancel_right₀ _ hsafe]
    apply le_of_eq
    unfold towerWorth
    rw [pow_succ]
    linear_combination
      stake * (1 - b.edge) * ((b.columns : ℚ) / b.safePerRow) ^ row * hratio

theorem towerFair_looks {D : Finset (Fin b.rows → Finset Nat)} (he : b.edge ≤ 1)
    (hcolumn : column < b.columns) (hrow : row < b.rows)
    (hfree : ∀ j : Fin b.rows, row ≤ j → Unseen j b.safeSets D) (hne : D.Nonempty) :
    Looks (fun safe => b.answer stake (b.towerBoard safe)) b.TowerFair (b.towerPotential stake)
      (b.towerView row picks) D (.pick (.column column)) := by
  constructor
  · intro safe _
    rw [answer_column hcolumn hrow]
    split
    · split <;> simp
    · simp
  · have hworth : ∀ safe ∈ D, (b.answer stake (b.towerBoard safe) (b.towerView row picks)
          (.pick (.column column))).worth (b.towerPotential stake) (b.towerView row picks) ≤
        if column ∈ safe ⟨row, hrow⟩ then b.towerWorth stake (row + 1) else 0 := by
      intro safe _
      rw [answer_column hcolumn hrow]
      split
      · split
        · exact towerMultiplier_le he
        · simp [Answer.worth, towerPotential, towerView]
      · simp [Answer.worth]
    refine le_trans (sum_le_sum hworth) ?_
    have hunseen := hfree ⟨row, hrow⟩ (Nat.le_refl row)
    have hsum := hunseen.sum fun T => if column ∈ T then b.towerWorth stake (row + 1) else 0
    obtain ⟨safe, hmem⟩ := hne
    have hcard : (0 : ℚ) < #b.safeSets := by
      exact_mod_cast card_pos.mpr ⟨_, (hunseen safe hmem).1⟩
    have hsafe : (∑ T ∈ b.safeSets, if column ∈ T then b.towerWorth stake (row + 1) else 0) =
        #{T ∈ b.safeSets | column ∈ T} * b.towerWorth stake (row + 1) := by
      rw [← sum_filter, sum_const, nsmul_eq_mul]
    rw [hsafe] at hsum
    refine le_of_mul_le_mul_left ?_ hcard
    calc #b.safeSets * ∑ safe ∈ D,
          (if column ∈ safe ⟨row, hrow⟩ then b.towerWorth stake (row + 1) else 0)
        = #D * (#{T ∈ b.safeSets | column ∈ T} * b.towerWorth stake (row + 1)) := hsum
      _ ≤ #D * (#b.safeSets * b.towerWorth stake row) :=
          mul_le_mul_of_nonneg_left (card_mul_towerWorth he hcolumn) (Nat.cast_nonneg _)
      _ = #b.safeSets * (#D * b.towerWorth stake row) := by ring
  · intro safe hmem s' hshows
    rw [answer_column hcolumn hrow] at hshows
    split at hshows
    · split at hshows
      · cases hshows
      case isFalse hgoes =>
        cases hshows
        refine ⟨row + 1, picks ++ [column], rfl, ?_⟩
        intro j hj
        have hfilter : {safe ∈ D | b.answer stake (b.towerBoard safe) (b.towerView row picks)
              (.pick (.column column)) = .shows (b.towerView (row + 1) (picks ++ [column]))} =
            {safe ∈ D | column ∈ safe ⟨row, hrow⟩} := by
          apply filter_congr
          intro safe' _
          rw [answer_column hcolumn hrow, if_neg hgoes]
          by_cases hin : column ∈ safe' ⟨row, hrow⟩ <;> simp [hin]
        rw [hfilter]
        refine (hfree j (by omega)).filter ?_ (fun T => column ∈ T)
        intro heq
        rw [heq] at hj
        exact absurd hj (by simp)
    · cases hshows

theorem tower_bounds (he : b.edge ≤ 1) :
    Bounds (fun safe => b.answer stake (b.towerBoard safe)) b.TowerFair
      (b.towerPotential stake) := by
  apply Bounds.of_looks
  · rintro v D ⟨row, picks, rfl, -⟩ -
    exact towerWorth_nonneg he
  · rintro v D move ⟨row, picks, rfl, hfree⟩ hne
    rcases answer_tower b stake row picks move with hpick | hrefuses | hpays
    · obtain ⟨_, hcolumn, hrow, rfl⟩ := hpick
      exact .inr (.inr (towerFair_looks he hcolumn hrow hfree hne))
    · exact .inl fun safe _ => hrefuses safe
    · exact .inr (.inl ⟨_, towerMultiplier_le he, fun safe _ => hpays safe⟩)

/-- The layouts of a start: a safe set for each row. -/
def towerFields (b : Shape) : Finset (Fin b.rows → Finset Nat) :=
  Fintype.piFinset fun _ => b.safeSets

theorem tower_edge (he : b.edge ≤ 1) (n : Nat) :
    𝔼 safe ∈ b.towerFields, (b.payout stake strategy n (b.towerBoard safe) : ℚ) ≤
      (1 - b.edge) * stake := by
  refine payout_le b.towerBoard (tower_bounds he) he n (fun _ => b.towerView 0 []) ?_ ?_ ?_
  · intro safe _
    rfl
  · intro safe _
    rw [filter_true_of_mem fun _ _ => rfl]
    exact ⟨0, [], rfl, fun j _ => unseen_piFinset j b.safeSets⟩
  · intro safe _
    simp [towerPotential, towerView, towerWorth, mul_comm]

end Tower

/-! ## Hilo -/

section Hilo

variable {direction : HiloDirection} {index rank : Nat} {cumMult : ℚ}

/-- The cards are their ranks. -/
def hiloBoard (b : Shape) (cards : Fin (b.maxSteps + 1) → Nat) : Field := .hilo (List.ofFn cards)

def hiloView (b : Shape) (index rank : Nat) (cumMult : ℚ) : Json :=
  .visible (.hilo index rank rank index cumMult b.maxSteps)

/-- `newCum` -/
def nextCum (b : Shape) (cumMult : ℚ) (rank : Nat) (direction : HiloDirection) : ℚ :=
  floor2 (cumMult * b.hiloStepMultiplier rank direction)

theorem answer_guess {cards : Fin (b.maxSteps + 1) → Nat} (hcards : ∀ i, cards i < b.ranks)
    (hindex : index + 1 < b.maxSteps + 1) (hrank : cards ⟨index, by omega⟩ = rank) :
    b.answer stake (b.hiloBoard cards) (b.hiloView index rank cumMult) (.pick (.guess direction)) =
      if correct direction rank (cards ⟨index + 1, hindex⟩) = true then
        if b.maxSteps ≤ index + 1 then
          .pays (payoutLamports stake true (b.nextCum cumMult rank direction))
        else
          .shows (b.hiloView (index + 1) (cards ⟨index + 1, hindex⟩)
            (b.nextCum cumMult rank direction))
      else .pays 0 := by
  have hmod : ∀ i, b.cardRank (cards i) = cards i := fun i => Nat.mod_eq_of_lt (hcards i)
  have hrequest : b.request (.pick (.guess direction))
      ⟨.secret (b.hiloBoard cards), b.hiloView index rank cumMult⟩ =
        b.hiloGuess direction ⟨.secret (b.hiloBoard cards), b.hiloView index rank cumMult⟩ := rfl
  have hnow : index < b.maxSteps + 1 := by omega
  subst hrank
  rw [answer, hrequest]
  simp only [hiloGuess, hiloBoard, hiloView, List.getElem?_ofFn, hnow, hindex, dite_true, hmod]
  by_cases hcorrect :
      correct direction (cards ⟨index, hnow⟩) (cards ⟨index + 1, hindex⟩) = true
  · by_cases hlast : b.maxSteps ≤ index + 1
    · simp [hcorrect, hlast, nextCum]
    · simp [hcorrect, hlast, nextCum]
  · simp [hcorrect, payoutLamports_lost]

/-- The requests that do not look at the cards. -/
theorem answer_hilo (b : Shape) (stake index rank : Nat) (cumMult : ℚ) (move : Move) :
    (∃ direction, index + 1 < b.maxSteps + 1 ∧ move = .pick (.guess direction)) ∨
      (∀ cards, b.answer stake (b.hiloBoard cards) (b.hiloView index rank cumMult) move =
        .refuses) ∨
      (0 < index ∧ ∀ cards, b.answer stake (b.hiloBoard cards) (b.hiloView index rank cumMult)
        move = .pays (payoutLamports stake true cumMult)) := by
  cases move with
  | pick p =>
    cases p with
    | cell c =>
      right; left
      intro cards
      by_cases hc : c < b.cells
      · simp [answer, request, check, Committed.ensure, hc, apply, bind, Except.bind, minesPick,
          hiloBoard, hiloView]
      · simp [answer, request, check, Committed.ensure, hc, bind, Except.bind]
    | guess direction =>
      by_cases hindex : index + 1 < b.maxSteps + 1
      · exact .inl ⟨direction, hindex, rfl⟩
      · right; left
        intro cards
        have hnone : (List.ofFn cards)[index + 1]? = none := by
          rw [List.getElem?_eq_none_iff, List.length_ofFn]
          omega
        simp [answer, request, check, apply, bind, Except.bind, hiloGuess, hiloBoard, hiloView,
          -List.ofFn_succ, hnone]
    | column c =>
      right; left
      intro cards
      by_cases hc : c < b.columns
      · simp [answer, request, check, Committed.ensure, hc, apply, bind, Except.bind, towerPick,
          hiloBoard, hiloView]
      · simp [answer, request, check, Committed.ensure, hc, bind, Except.bind]
  | cashout game =>
    cases game with
    | hilo =>
      by_cases hnone : index < 1
      · right; left
        intro cards
        simp [answer, request, check, apply, bind, Except.bind, hiloCashout, hiloBoard, hiloView,
          hnone]
      · right; right
        refine ⟨by omega, ?_⟩
        intro cards
        simp [answer, request, check, apply, bind, Except.bind, hiloCashout, hiloBoard, hiloView,
          hnone]
    | mines | tower => exact .inr (.inl fun cards => rfl)

/-- The ranks that win a guess are as many as its chance says. -/
theorem card_correct (hrank : rank < b.ranks) :
    (#{d ∈ range b.ranks | correct direction rank d = true} : ℚ) =
      b.ranks * b.hiloWinProbability rank direction := by
  have hranks : (b.ranks : ℚ) ≠ 0 := by
    have hpos : (0 : ℚ) < b.ranks := by exact_mod_cast Nat.zero_lt_of_lt hrank
    exact hpos.ne'
  cases direction with
  | higher =>
    have hset : {d ∈ range b.ranks | correct .higher rank d = true} = Ico rank b.ranks := by
      ext d
      simp [correct, and_comm]
    rw [hset, Nat.card_Ico, Nat.cast_sub hrank.le, hiloWinProbability, mul_div_cancel₀ _ hranks]
  | lower =>
    have hset : {d ∈ range b.ranks | correct .lower rank d = true} = range (rank + 1) := by
      ext d
      simp only [correct, decide_eq_true_eq, mem_filter, mem_range]
      omega
    rw [hset, card_range, hiloWinProbability, mul_div_cancel₀ _ hranks]
    push_cast
    rfl

theorem hiloWinProbability_pos (hrank : rank < b.ranks) :
    0 < b.hiloWinProbability rank direction := by
  have hranks : (0 : ℚ) < b.ranks := by exact_mod_cast Nat.zero_lt_of_lt hrank
  cases direction with
  | higher =>
    have hlt : (rank : ℚ) < b.ranks := by exact_mod_cast hrank
    exact div_pos (by linarith) hranks
  | lower => exact div_pos (by positivity) hranks

theorem hiloStepMultiplier_nonneg (he : b.edge ≤ 1) (hrank : rank < b.ranks) :
    0 ≤ b.hiloStepMultiplier rank direction := by
  have hpos : 0 < b.hiloWinProbability rank direction := hiloWinProbability_pos hrank
  rw [hiloStepMultiplier, if_neg (not_le.mpr hpos)]
  exact floor2_nonneg (div_nonneg (by linarith) hpos.le)

/-- A guess, at its chance, costs the edge. -/
theorem nextCum_le (hrank : rank < b.ranks) (hcum : 0 ≤ cumMult) :
    b.hiloWinProbability rank direction * b.nextCum cumMult rank direction ≤
      (1 - b.edge) * cumMult := by
  have hpos : 0 < b.hiloWinProbability rank direction := hiloWinProbability_pos hrank
  have hstep : b.hiloStepMultiplier rank direction ≤
      (1 - b.edge) / b.hiloWinProbability rank direction := by
    rw [hiloStepMultiplier, if_neg (not_le.mpr hpos)]
    exact floor2_le _
  calc b.hiloWinProbability rank direction * b.nextCum cumMult rank direction
      ≤ b.hiloWinProbability rank direction *
          (cumMult * ((1 - b.edge) / b.hiloWinProbability rank direction)) := by
        refine mul_le_mul_of_nonneg_left ?_ hpos.le
        exact le_trans (floor2_le _) (mul_le_mul_of_nonneg_left hstep hcum)
    _ = (1 - b.edge) * cumMult := by
        field_simp

/-- The edge is due from the first guess on. -/
def hiloPotential (b : Shape) (stake : Nat) : Json → ℚ
  | .visible (.hilo _ _ _ steps cumMult _) =>
      if steps = 0 then stake * ((1 - b.edge) * cumMult) else stake * cumMult
  | _ => 0

structure HiloSeen (b : Shape) (index rank : Nat) (cumMult : ℚ)
    (D : Finset (Fin (b.maxSteps + 1) → Nat)) : Prop where
  ranks : ∀ cards ∈ D, ∀ i, cards i < b.ranks
  shown : ∀ cards ∈ D, ∀ i : Fin (b.maxSteps + 1), i.val = index → cards i = rank
  unseen : ∀ j : Fin (b.maxSteps + 1), index < j.val → Unseen j (range b.ranks) D
  hundredths : Hundredths cumMult

def HiloFair (b : Shape) (v : Json) (D : Finset (Fin (b.maxSteps + 1) → Nat)) : Prop :=
  ∃ index rank cumMult, v = b.hiloView index rank cumMult ∧ b.HiloSeen index rank cumMult D

variable {D : Finset (Fin (b.maxSteps + 1) → Nat)}

theorem Hundredths.nonneg {x : ℚ} (hx : Hundredths x) : 0 ≤ x := by
  obtain ⟨m, rfl⟩ := hx
  positivity

/-- The next multiplier, and what it pays. -/
theorem hundredths_nextCum (he : b.edge ≤ 1) (hrank : rank < b.ranks) (hcum : 0 ≤ cumMult) :
    Hundredths (b.nextCum cumMult rank direction) :=
  hundredths_floor2 (mul_nonneg hcum (hiloStepMultiplier_nonneg he hrank))

theorem hiloPotential_le (he : 0 ≤ b.edge) (hcum : 0 ≤ cumMult) :
    stake * ((1 - b.edge) * cumMult) ≤
      b.hiloPotential stake (b.hiloView index rank cumMult) := by
  simp only [hiloPotential, hiloView]
  split
  · exact le_refl _
  · refine mul_le_mul_of_nonneg_left ?_ (Nat.cast_nonneg _)
    nlinarith

theorem hiloFair_looks (he : 0 ≤ b.edge) (he' : b.edge ≤ 1)
    (hindex : index + 1 < b.maxSteps + 1) (hseen : b.HiloSeen index rank cumMult D)
    (hne : D.Nonempty) :
    Looks (fun cards => b.answer stake (b.hiloBoard cards)) b.HiloFair (b.hiloPotential stake)
      (b.hiloView index rank cumMult) D (.pick (.guess direction)) := by
  have hnow : index < b.maxSteps + 1 := by omega
  have hanswer : ∀ cards ∈ D, b.answer stake (b.hiloBoard cards) (b.hiloView index rank cumMult)
        (.pick (.guess direction)) =
      if correct direction rank (cards ⟨index + 1, hindex⟩) = true then
        if b.maxSteps ≤ index + 1 then
          .pays (payoutLamports stake true (b.nextCum cumMult rank direction))
        else
          .shows (b.hiloView (index + 1) (cards ⟨index + 1, hindex⟩)
            (b.nextCum cumMult rank direction))
      else .pays 0 :=
    fun cards hmem => answer_guess (hseen.ranks cards hmem) hindex
      (hseen.shown cards hmem ⟨index, hnow⟩ rfl)
  have hrank : rank < b.ranks := by
    obtain ⟨cards, hmem⟩ := hne
    rw [← hseen.shown cards hmem ⟨index, hnow⟩ rfl]
    exact hseen.ranks cards hmem _
  have hcum := hseen.hundredths.nonneg
  have hnext : Hundredths (b.nextCum cumMult rank direction) := hundredths_nextCum he' hrank hcum
  constructor
  · intro cards hmem
    rw [hanswer cards hmem]
    split
    · split <;> simp
    · simp
  · let g : Nat → ℚ := fun d =>
      if correct direction rank d = true then stake * b.nextCum cumMult rank direction else 0
    have hworth : ∀ cards ∈ D, (b.answer stake (b.hiloBoard cards)
          (b.hiloView index rank cumMult) (.pick (.guess direction))).worth
          (b.hiloPotential stake) (b.hiloView index rank cumMult) ≤
        g (cards ⟨index + 1, hindex⟩) := by
      intro cards hmem
      rw [hanswer cards hmem]
      simp only [g]
      split
      · split
        · exact payoutLamports_le hnext true
        · simp [Answer.worth, hiloPotential, hiloView]
      · simp [Answer.worth]
    have hsum := (hseen.unseen ⟨index + 1, hindex⟩ (Nat.lt_succ_self index)).sum g
    have hg : ∑ d ∈ range b.ranks, g d = b.ranks * b.hiloWinProbability rank direction *
        (stake * b.nextCum cumMult rank direction) := by
      simp only [g]
      rw [← sum_filter, sum_const, nsmul_eq_mul, card_correct hrank]
    have hranks : (0 : ℚ) < b.ranks := by exact_mod_cast Nat.zero_lt_of_lt hrank
    rw [hg, card_range] at hsum
    refine le_trans (sum_le_sum hworth) (le_of_mul_le_mul_left ?_ hranks)
    have hguess : stake * (b.hiloWinProbability rank direction *
        b.nextCum cumMult rank direction) ≤
          b.hiloPotential stake (b.hiloView index rank cumMult) :=
      le_trans (mul_le_mul_of_nonneg_left (nextCum_le hrank hcum) (Nat.cast_nonneg _))
        (hiloPotential_le he hcum)
    calc b.ranks * ∑ cards ∈ D, g (cards ⟨index + 1, hindex⟩)
        = b.ranks * (#D * (stake * (b.hiloWinProbability rank direction *
            b.nextCum cumMult rank direction))) := by rw [hsum]; ring
      _ ≤ b.ranks * (#D * b.hiloPotential stake (b.hiloView index rank cumMult)) := by
        gcongr
  · intro cards hmem s' hshows
    have hshows' := hshows
    rw [hanswer cards hmem] at hshows'
    split at hshows'
    · split at hshows'
      · cases hshows'
      case isFalse hcorrect hgoes =>
        cases hshows'
        have hfilter : {cards' ∈ D | b.answer stake (b.hiloBoard cards')
              (b.hiloView index rank cumMult) (.pick (.guess direction)) =
                .shows (b.hiloView (index + 1) (cards ⟨index + 1, hindex⟩)
                  (b.nextCum cumMult rank direction))} =
            {cards' ∈ D | cards' ⟨index + 1, hindex⟩ = cards ⟨index + 1, hindex⟩} := by
          apply filter_congr
          intro cards' hmem'
          rw [hanswer cards' hmem', if_neg hgoes]
          constructor
          · intro heq
            split at heq
            · simp only [hiloView, Answer.shows.injEq, Json.visible.injEq,
                Progress.hilo.injEq] at heq
              exact heq.2.1
            · cases heq
          · intro heq
            rw [heq, if_pos hcorrect]
        refine ⟨index + 1, cards ⟨index + 1, hindex⟩, b.nextCum cumMult rank direction, rfl, ?_⟩
        rw [hfilter]
        refine ⟨?_, ?_, ?_, hnext⟩
        · intro cards' hmem'
          exact hseen.ranks cards' (mem_filter.mp hmem').1
        · intro cards' hmem' i hi
          have hi' : i = ⟨index + 1, hindex⟩ := Fin.ext hi
          rw [hi']
          exact (mem_filter.mp hmem').2
        · intro j hj
          refine (hseen.unseen j (by omega)).filter ?_
            (fun d => d = cards ⟨index + 1, hindex⟩)
          intro heq
          rw [heq] at hj
          exact absurd hj (Nat.lt_irrefl _)
    · cases hshows'

theorem hilo_bounds (he : 0 ≤ b.edge) (he' : b.edge ≤ 1) :
    Bounds (fun cards => b.answer stake (b.hiloBoard cards)) b.HiloFair
      (b.hiloPotential stake) := by
  apply Bounds.of_looks
  · rintro v D ⟨index, rank, cumMult, rfl, hseen⟩ -
    have hcum := hseen.hundredths.nonneg
    exact le_trans (mul_nonneg (Nat.cast_nonneg _) (mul_nonneg (by linarith) hcum))
      (hiloPotential_le he hcum)
  · rintro v D move ⟨index, rank, cumMult, rfl, hseen⟩ hne
    rcases answer_hilo b stake index rank cumMult move with hpick | hrefuses | ⟨hsteps, hpays⟩
    · obtain ⟨_, hindex, rfl⟩ := hpick
      exact .inr (.inr (hiloFair_looks he he' hindex hseen hne))
    · exact .inl fun cards _ => hrefuses cards
    · refine .inr (.inl ⟨_, ?_, fun cards _ => hpays cards⟩)
      simp only [hiloPotential, hiloView, if_neg hsteps.ne']
      exact payoutLamports_le hseen.hundredths true

/-- The cards of a start. -/
def hiloFields (b : Shape) : Finset (Fin (b.maxSteps + 1) → Nat) :=
  Fintype.piFinset fun _ => range b.ranks

theorem hilo_edge (he : 0 ≤ b.edge) (he' : b.edge ≤ 1) (n : Nat) :
    𝔼 cards ∈ b.hiloFields, (b.payout stake strategy n (b.hiloBoard cards) : ℚ) ≤
      (1 - b.edge) * stake := by
  have hranks : ∀ cards ∈ b.hiloFields, ∀ i, cards i < b.ranks := by
    intro cards hmem i
    exact mem_range.mp (Fintype.mem_piFinset.mp hmem i)
  refine payout_le b.hiloBoard (hilo_bounds he he') he' n (fun cards => b.hiloView 0 (cards 0) 1)
    ?_ ?_ ?_
  · intro cards hmem
    have hmod : cards 0 % b.ranks = cards 0 := Nat.mod_eq_of_lt (hranks cards hmem 0)
    simp [opening, hiloBoard, hiloView, cardRank, hmod]
  · intro cards hmem
    refine ⟨0, cards 0, 1, rfl, ?_, ?_, ?_, ⟨100, by norm_num⟩⟩
    · intro cards' hmem'
      exact hranks cards' (mem_filter.mp hmem').1
    · intro cards' hmem' i hi
      have hview := (mem_filter.mp hmem').2
      simp only [hiloView, Json.visible.injEq, Progress.hilo.injEq] at hview
      have hi' : i = 0 := Fin.ext hi
      rw [hi']
      exact hview.2.1
    · intro j hj
      have hfilter : {cards' ∈ b.hiloFields | b.hiloView 0 (cards' 0) 1 =
            b.hiloView 0 (cards 0) 1} = {cards' ∈ b.hiloFields | cards' 0 = cards 0} := by
        apply filter_congr
        intro cards' _
        simp [hiloView]
      rw [hfilter]
      refine (unseen_piFinset j _).filter ?_ (fun d => d = cards 0)
      intro heq
      rw [heq] at hj
      exact absurd hj (Nat.lt_irrefl 0)
  · intro cards _
    simp [hiloPotential, hiloView, mul_comm]

end Hilo

/-! ## The three games -/

/-- Whatever a player does, a round is paid at most the stake less the edge on
average: over the layouts of a mine field, over the safe sets of a tower's
rows, over the cards of hilo. -/
theorem no_strategy_beats_edge (b : Shape) (he : 0 ≤ b.edge) (he' : b.edge < 1) (stake : Nat)
    (strategy : List Json → Move) (n : Nat) :
    (∀ mines, 𝔼 S ∈ b.mineFields mines,
      (b.payout stake strategy n (mineBoard mines S) : ℚ) ≤ (1 - b.edge) * stake) ∧
    (𝔼 cards ∈ b.hiloFields, (b.payout stake strategy n (b.hiloBoard cards) : ℚ) ≤
      (1 - b.edge) * stake) ∧
    (𝔼 safe ∈ b.towerFields, (b.payout stake strategy n (b.towerBoard safe) : ℚ) ≤
      (1 - b.edge) * stake) :=
  ⟨fun _ => mines_edge he'.le n, hilo_edge he he'.le n, tower_edge he'.le n⟩

/-- On the services' boards: a player who picks a cell, and then takes the money. -/
theorem no_strategy_beats_edge_source :
    𝔼 S ∈ Shape.source.mineFields 24,
      (Shape.source.payout 1000000
        (fun seen => if seen.length = 1 then .pick (.cell 0) else .cashout .mines) 2
        (mineBoard 24 S) : ℚ) ≤ (1 - 5 / 100) * 1000000 := by
  have hedge : Shape.source.edge = 5 / 100 := rfl
  have h := (no_strategy_beats_edge Shape.source (by rw [hedge]; norm_num)
    (by rw [hedge]; norm_num) 1000000
    (fun seen => if seen.length = 1 then .pick (.cell 0) else .cashout .mines) 2).1 24
  rw [hedge] at h
  exact_mod_cast h

end Scadium.Games.Instant.Shape
