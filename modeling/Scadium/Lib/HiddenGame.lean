/-
Scadium.Lib.HiddenGame — a round played against a hidden draw.

The draw is uniform over a finite set. The player sees only what the answers
have shown, and chooses each request by all of it; an answer shows something,
ends the round with a payment, or refuses. A potential that no request raises
on average, over the draws that fit what is shown, bounds what any strategy
is paid (`Bounds.expect_le`).

Where the draw is a tuple, a coordinate that no answer has looked at is still
uniform (`Unseen`).
-/
import Mathlib.Algebra.BigOperators.Expect
import Mathlib.Algebra.Order.BigOperators.Group.Finset
import Mathlib.Algebra.Order.Field.Rat
import Mathlib.Data.Fintype.Pi

namespace Scadium.Lib.HiddenGame

open Finset BigOperators

/-- What a request is answered with. -/
inductive Answer (σ : Type) where
  | shows (s : σ)
  | pays (x : ℚ)
  | refuses
  deriving DecidableEq

section Play

variable {Ω σ α : Type} [DecidableEq σ]

/-- What `n` requests are paid, by the draw `ω`. -/
def play (answer : Ω → σ → α → Answer σ) (strategy : List σ → α) (ω : Ω) :
    (n : Nat) → σ → List σ → ℚ
  | 0, _, _ => 0
  | n + 1, s, seen =>
      match answer ω s (strategy (s :: seen)) with
      | .shows s' => play answer strategy ω n s' (s :: seen)
      | .pays x => x
      | .refuses => play answer strategy ω n s (s :: seen)

/-- An answer, at the potential. -/
def Answer.worth (V : σ → ℚ) (s : σ) : Answer σ → ℚ
  | .shows s' => V s'
  | .pays x => x
  | .refuses => V s

/-- `Fair s D`: where `s` is shown, the draw may be any of `D`. No request raises
the potential on average, whatever the answers leave of `D`. -/
structure Bounds (answer : Ω → σ → α → Answer σ) (Fair : σ → Finset Ω → Prop) (V : σ → ℚ) :
    Prop where
  nonneg : ∀ s D, Fair s D → D.Nonempty → 0 ≤ V s
  worth : ∀ s D a, Fair s D → ∑ ω ∈ D, (answer ω s a).worth V s ≤ #D * V s
  shows : ∀ s D a ω s', Fair s D → ω ∈ D → answer ω s a = .shows s' →
    Fair s' {ω ∈ D | answer ω s a = .shows s'}
  refuses : ∀ s D a ω, Fair s D → ω ∈ D → answer ω s a = .refuses →
    Fair s {ω ∈ D | answer ω s a = .refuses}

variable {answer : Ω → σ → α → Answer σ} {Fair : σ → Finset Ω → Prop} {V : σ → ℚ}
  {strategy : List σ → α} {s : σ} {D : Finset Ω}

/-- The draws that are answered alike, one by one. -/
theorem sum_answers (answer : Ω → σ → α → Answer σ) (s : σ) (a : α) (f : Ω → ℚ) :
    ∑ r ∈ D.image fun ω => answer ω s a, ∑ ω ∈ D with answer ω s a = r, f ω = ∑ ω ∈ D, f ω :=
  sum_fiberwise_of_maps_to (fun _ hω => mem_image_of_mem _ hω) f

/-- Over the draws that are answered alike the worth is one number. -/
theorem sum_worth (answer : Ω → σ → α → Answer σ) (s : σ) (a : α) (r : Answer σ) :
    ∑ ω ∈ D with answer ω s a = r, (answer ω s a).worth V s =
      #{ω ∈ D | answer ω s a = r} * r.worth V s := by
  have hsame : ∀ ω ∈ ({ω ∈ D | answer ω s a = r} : Finset Ω),
      (answer ω s a).worth V s = r.worth V s := by
    intro ω hω
    rw [(mem_filter.mp hω).2]
  rw [sum_congr rfl hsame, sum_const, nsmul_eq_mul]

theorem Bounds.sum_le (h : Bounds answer Fair V) (n : Nat) (seen : List σ) (hfair : Fair s D) :
    ∑ ω ∈ D, play answer strategy ω n s seen ≤ #D * V s := by
  induction n generalizing s D seen with
  | zero =>
    simp only [play, sum_const_zero]
    rcases D.eq_empty_or_nonempty with rfl | hne
    · simp
    · exact mul_nonneg (Nat.cast_nonneg _) (h.nonneg s D hfair hne)
  | succ n ih =>
    let a := strategy (s :: seen)
    refine le_trans ?_ (h.worth s D a hfair)
    rw [← sum_answers answer s a fun ω => play answer strategy ω (n + 1) s seen,
      ← sum_answers answer s a]
    apply sum_le_sum
    intro r hr
    obtain ⟨ω, hω, hanswer⟩ := mem_image.mp hr
    rw [sum_worth]
    cases r with
    | shows s' =>
      refine le_trans (le_of_eq ?_) (ih (s :: seen) (h.shows s D a ω s' hfair hω hanswer))
      apply sum_congr rfl
      intro ω' hω'
      simp only [play, a, (mem_filter.mp hω').2]
    | pays =>
      rw [Answer.worth, ← nsmul_eq_mul, ← sum_const]
      refine le_of_eq (sum_congr rfl ?_)
      intro ω' hω'
      simp only [play, a, (mem_filter.mp hω').2]
    | refuses =>
      refine le_trans (le_of_eq ?_) (ih (s :: seen) (h.refuses s D a ω hfair hω hanswer))
      apply sum_congr rfl
      intro ω' hω'
      simp only [play, a, (mem_filter.mp hω').2]

/-- No strategy is paid more on average than the potential at the start, also
where the start already shows something of the draw. -/
theorem Bounds.expect_le (h : Bounds answer Fair V) (strategy : List σ → α) (n : Nat)
    (opening : Ω → σ) {c : ℚ} (hc : 0 ≤ c)
    (hfair : ∀ ω ∈ D, Fair (opening ω) {ω' ∈ D | opening ω' = opening ω})
    (hV : ∀ ω ∈ D, V (opening ω) ≤ c) :
    𝔼 ω ∈ D, play answer strategy ω n (opening ω) [] ≤ c := by
  rcases D.eq_empty_or_nonempty with rfl | hne
  · simpa using hc
  have hcard : (0 : ℚ) < #D := by exact_mod_cast hne.card_pos
  rw [expect_eq_sum_div_card, div_le_iff₀ hcard, mul_comm, ← nsmul_eq_mul, ← sum_const]
  rw [← sum_fiberwise_of_maps_to (g := opening) (t := D.image opening)
      (fun _ hω => mem_image_of_mem _ hω) fun ω => play answer strategy ω n (opening ω) [],
    ← sum_fiberwise_of_maps_to (g := opening) (t := D.image opening)
      (fun _ hω => mem_image_of_mem _ hω) fun _ => c]
  apply sum_le_sum
  intro s hs
  obtain ⟨ω, hω, rfl⟩ := mem_image.mp hs
  have hsame : ∀ ω' ∈ ({ω' ∈ D | opening ω' = opening ω} : Finset Ω),
      play answer strategy ω' n (opening ω') [] = play answer strategy ω' n (opening ω) [] := by
    intro ω' hω'
    rw [(mem_filter.mp hω').2]
  rw [sum_congr rfl hsame, sum_const, nsmul_eq_mul]
  exact le_trans (h.sum_le n [] (hfair ω hω))
    (mul_le_mul_of_nonneg_left (hV ω hω) (Nat.cast_nonneg _))

omit [DecidableEq σ] in
/-- A draw may be described by another. -/
theorem play_comp {Ω' : Type} (f : Ω' → Ω) (ω : Ω') (n : Nat) (seen : List σ) :
    play (fun ω => answer (f ω)) strategy ω n s seen = play answer strategy (f ω) n s seen := by
  induction n generalizing s seen with
  | zero => rfl
  | succ n ih =>
    simp only [play]
    split
    · exact ih (s :: seen)
    · rfl
    · exact ih (s :: seen)

/-- A request that is answered by what the draw is. -/
structure Looks (answer : Ω → σ → α → Answer σ) (Fair : σ → Finset Ω → Prop) (V : σ → ℚ) (s : σ)
    (D : Finset Ω) (a : α) : Prop where
  answers : ∀ ω ∈ D, answer ω s a ≠ .refuses
  worth : ∑ ω ∈ D, (answer ω s a).worth V s ≤ #D * V s
  shows : ∀ ω ∈ D, ∀ s', answer ω s a = .shows s' → Fair s' {ω ∈ D | answer ω s a = .shows s'}

/-- The other requests are refused, or paid at most the potential. -/
theorem Bounds.of_looks (hnonneg : ∀ s D, Fair s D → D.Nonempty → 0 ≤ V s)
    (h : ∀ s D a, Fair s D → D.Nonempty → (∀ ω ∈ D, answer ω s a = .refuses) ∨
      (∃ x ≤ V s, ∀ ω ∈ D, answer ω s a = .pays x) ∨ Looks answer Fair V s D a) :
    Bounds answer Fair V where
  nonneg := hnonneg
  worth s D a hfair := by
    rcases D.eq_empty_or_nonempty with rfl | hne
    · simp
    rcases h s D a hfair hne with hrefuses | ⟨x, hx, hpays⟩ | hlook
    · apply le_of_eq
      rw [sum_congr rfl fun ω hω => by rw [hrefuses ω hω], sum_const, nsmul_eq_mul, Answer.worth]
    · rw [sum_congr rfl fun ω hω => by rw [hpays ω hω], sum_const, nsmul_eq_mul, Answer.worth]
      exact mul_le_mul_of_nonneg_left hx (Nat.cast_nonneg _)
    · exact hlook.worth
  shows s D a ω s' hfair hω hshows := by
    rcases h s D a hfair ⟨ω, hω⟩ with hrefuses | ⟨x, -, hpays⟩ | hlook
    · rw [hrefuses ω hω] at hshows
      cases hshows
    · rw [hpays ω hω] at hshows
      cases hshows
    · exact hlook.shows ω hω s' hshows
  refuses s D a ω hfair hω href := by
    rcases h s D a hfair ⟨ω, hω⟩ with hrefuses | ⟨x, -, hpays⟩ | hlook
    · rw [filter_true_of_mem hrefuses]
      exact hfair
    · rw [hpays ω hω] at href
      cases href
    · exact absurd href (hlook.answers ω hω)

end Play

/-! ## Tuples -/

section Unseen

variable {n : Nat} {β : Type} {k j : Fin n} {E : Finset β} {D : Finset (Fin n → β)}

/-- The coordinate `k` may still be anything in `E`, whatever the others are. -/
def Unseen (k : Fin n) (E : Finset β) (D : Finset (Fin n → β)) : Prop :=
  ∀ ω ∈ D, ω k ∈ E ∧ ∀ b ∈ E, Function.update ω k b ∈ D

/-- So it is uniform over `E`. -/
theorem Unseen.sum (h : Unseen k E D) (g : β → ℚ) :
    #E * ∑ ω ∈ D, g (ω k) = #D * ∑ b ∈ E, g b := by
  have hleft : #E * ∑ ω ∈ D, g (ω k) = ∑ p ∈ D ×ˢ E, g (p.1 k) := by
    rw [sum_product, mul_sum]
    simp
  have hright : #D * ∑ b ∈ E, g b = ∑ p ∈ D ×ˢ E, g p.2 := by
    rw [sum_product]
    simp
  rw [hleft, hright]
  -- exchanging the coordinate for the other number
  refine sum_nbij' (fun p => (Function.update p.1 k p.2, p.1 k))
    (fun p => (Function.update p.1 k p.2, p.1 k)) ?_ ?_ ?_ ?_ ?_
  all_goals
    rintro ⟨ω, b⟩ hp
    obtain ⟨hω, hb⟩ := mem_product.mp hp
  · exact mem_product.mpr ⟨(h ω hω).2 b hb, (h ω hω).1⟩
  · exact mem_product.mpr ⟨(h ω hω).2 b hb, (h ω hω).1⟩
  · simp
  · simp
  · rfl

/-- A look at another coordinate leaves it unseen. -/
theorem Unseen.filter (h : Unseen j E D) (hne : j ≠ k) (P : β → Prop) [DecidablePred P] :
    Unseen j E {ω ∈ D | P (ω k)} := by
  intro ω hω
  obtain ⟨hmem, _⟩ := mem_filter.mp hω
  refine ⟨(h ω hmem).1, ?_⟩
  intro b hb
  refine mem_filter.mpr ⟨(h ω hmem).2 b hb, ?_⟩
  rwa [Function.update_of_ne hne.symm]

theorem unseen_piFinset [DecidableEq β] (k : Fin n) (E : Finset β) :
    Unseen k E (Fintype.piFinset fun _ : Fin n => E) := by
  intro ω hω
  rw [Fintype.mem_piFinset] at hω
  refine ⟨hω k, ?_⟩
  intro b hb
  rw [Fintype.mem_piFinset]
  intro j
  by_cases hj : j = k
  · subst hj
    simpa using hb
  · simpa [hj] using hω j

end Unseen

end Scadium.Lib.HiddenGame
