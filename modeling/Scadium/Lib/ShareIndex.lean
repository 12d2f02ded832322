/-
Scadium.Lib.ShareIndex — shares of a pool valued by an index, over the
natural numbers.

`r` is the scalar of the index: `n` shares at the index `i` are worth
`n * i / r` of the pooled asset. `Covers r a p n i` says that `a` units of
the asset cover a claim fixed at `p` units and `n` shares at the index `i`.
Deposits, yield and exits change all five numbers, each with its own
rounding; the rules say that none of them uncovers a claim. A pool that
covers no fixed claim and all of its shares can pay every one of them.

`EarlyExit` is leaving such a pool with a penalty, at once or in parts. Shares
leave at the index `i`; of what they are worth one part in `d`, rounded down,
is kept and credited to the `t` shares that were there, less those that leave.
Whoever leaves in parts has shares among those credited: what the parts are
paid exceeds what one exit is paid by no more than a unit for each part and
what the raises between the parts add to the worth of the shares still to
leave, less the penalty on it. And together they are never paid more than all
the shares were worth at the start.
-/
import Mathlib.Tactic.Linarith
import Mathlib.Tactic.Ring
import Mathlib.Algebra.Order.Floor.Div

namespace Scadium.Lib.ShareIndex

/-- The assets `a` cover `p` units and `n` shares at the index `i`. -/
def Covers (r a p n i : Nat) : Prop := p * r + n * i ≤ a * r

variable {r a p n i : Nat}

theorem covers_zero (r i : Nat) : Covers r 0 0 0 i := by
  unfold Covers
  omega

/-- Shares are worth no more than what covers them. -/
theorem Covers.worth_le (h : Covers r a p n i) {s : Nat} (hs : s ≤ n) : s * i / r ≤ a := by
  have hmul : s * i ≤ n * i := Nat.mul_le_mul_right i hs
  unfold Covers at h
  refine Nat.div_le_of_le_mul ?_
  rw [Nat.mul_comm r]
  omega

theorem Covers.fixed_le (h : Covers r a p n i) (hr : 0 < r) : p ≤ a := by
  unfold Covers at h
  exact Nat.le_of_mul_le_mul_right (by omega) hr

/-- Fewer shares are covered with more. -/
theorem Covers.mono (h : Covers r a p n i) {m : Nat} (hm : m ≤ n) : Covers r a p m i := by
  have hmul : m * i ≤ n * i := Nat.mul_le_mul_right i hm
  unfold Covers at *
  omega

/-! ## Deposits and yield -/

/-- A deposit of `d`, as the shares it buys at the index, rounded down. -/
theorem Covers.deposit (h : Covers r a p n i) (d : Nat) :
    Covers r (a + d) p (n + d * r / i) i := by
  have hfloor : d * r / i * i ≤ d * r := Nat.div_mul_le_self _ _
  unfold Covers at *
  rw [Nat.add_mul, Nat.add_mul]
  omega

/-- A deposit of `d`, as a claim fixed at `d`. -/
theorem Covers.deposit_fixed (h : Covers r a p n i) (d : Nat) : Covers r (a + d) (p + d) n i := by
  unfold Covers at *
  rw [Nat.add_mul, Nat.add_mul]
  omega

/-- What `y` units credited to `t` shares add to the worth of `n` of them. -/
theorem mul_raise_le {t : Nat} (hn : n ≤ t) (y : Nat) :
    n * (i + y * r / t) ≤ n * i + y * r := by
  have hfloor : n * (y * r / t) ≤ y * r :=
    calc n * (y * r / t) ≤ t * (y * r / t) := Nat.mul_le_mul_right _ hn
      _ ≤ y * r := Nat.mul_div_le _ _
  rw [Nat.mul_add]
  omega

/-- Yield of `y` units, credited to `t` shares, `n` of them covered here. -/
theorem Covers.raise (h : Covers r a p n i) {t : Nat} (hn : n ≤ t) (y : Nat) :
    Covers r (a + y) p n (i + y * r / t) := by
  have hraise := mul_raise_le (i := i) (r := r) hn y
  unfold Covers at *
  rw [Nat.add_mul]
  omega

/-- A raise that stays below a bound. -/
theorem raise_lt_iff {t : Nat} (ht : 0 < t) (y b : Nat) :
    i + y * r / t < b ↔ y * r < (b - i) * t := by
  rw [← Nat.div_lt_iff_lt_mul ht]
  generalize y * r / t = raised
  omega

/-- What the division leaves over when `d` units buy shares, rounded up. -/
theorem remainder_le (hr : 0 < r) (d : Nat) : (d * r % i + (r - 1)) / r ≤ d := by
  have hle : d * r % i ≤ d * r := Nat.mod_le _ _
  rw [← Nat.lt_succ_iff, Nat.div_lt_iff_lt_mul hr, Nat.succ_mul]
  omega

/-- What the shares that `d` units buy are worth. -/
theorem worth_of_bought (hr : 0 < r) (d : Nat) :
    d * r / i * i / r = d - (d * r % i + (r - 1)) / r := by
  have hsplit := Nat.div_add_mod (d * r) i
  rw [Nat.mul_comm i] at hsplit
  have hup := Nat.mul_le_mul_right r (remainder_le (i := i) hr d)
  have hceil := Nat.lt_div_mul_add (a := d * r % i + (r - 1)) hr
  have hfloor := Nat.div_mul_le_self (d * r % i + (r - 1)) r
  rw [Nat.div_eq_iff hr, Nat.sub_mul]
  omega

/-- That is all of it but one unit at most, exactly if the division leaves at
most one unit over. -/
theorem bought_fair_iff (hr : 0 < r) {d : Nat} (hd : 0 < d) :
    d - 1 ≤ d * r / i * i / r ↔ d * r % i ≤ r := by
  have hup : (d * r % i + (r - 1)) / r ≤ 1 ↔ d * r % i ≤ r := by
    rw [← Nat.lt_succ_iff, Nat.div_lt_iff_lt_mul hr]
    omega
  have hle := remainder_le (i := i) hr d
  rw [worth_of_bought hr, ← hup]
  omega

/-! ## Exits

`s` shares leave at the index; of what they are worth `net` units are paid
and `kept` stay, credited to the `t` shares left. -/

section Exit

variable {s net kept t : Nat}

/-- The shares that leave are among those covered. -/
theorem Covers.exit (h : Covers r a p n i) (hs : s ≤ n) (hworth : (net + kept) * r ≤ s * i)
    (hleft : n - s ≤ t) : Covers r (a - net) p (n - s) (i + kept * r / t) := by
  have hraise := mul_raise_le (i := i) (r := r) hleft kept
  have hsplit : (n - s) * i + s * i = n * i := by
    rw [← Nat.add_mul, Nat.sub_add_cancel hs]
  unfold Covers at *
  rw [Nat.add_mul] at hworth
  rw [Nat.sub_mul a]
  omega

/-- The shares that leave, `s` of the owner's `m`, are not among those
covered; the claim covered with them is what the owner paid in, and it
goes down in proportion. `lock` shares belong to nobody. -/
theorem Covers.exit_fixed {m lock : Nat} (h : Covers r a p n i) (hall : Covers r a 0 (n + m + lock) i)
    (hlock : r ≤ lock * i) (hr : 0 < r) (hs : s ≤ m)
    (hworth : net + kept = s * i / r) (hleft : n ≤ t) :
    Covers r (a - net) (p - p * s / m) n (i + kept * r / t) := by
  have hraise := mul_raise_le (i := i) (r := r) hleft kept
  have hfloor : (net + kept) * r ≤ s * i := hworth ▸ Nat.div_mul_le_self _ _
  have hportion : p * s / m ≤ p := by
    refine Nat.div_le_of_le_mul ?_
    rw [Nat.mul_comm m]
    exact Nat.mul_le_mul_left p hs
  rw [Nat.add_mul] at hfloor
  rcases Nat.le_total (m * i) (p * r) with hover | hunder
  · -- the claim is at least what the shares are worth: it goes down by more than is paid
    have hpaid : net + kept ≤ p * s / m := by
      rw [hworth]
      rcases Nat.eq_zero_or_pos m with rfl | hm
      · have hzero : s = 0 := by omega
        simp [hzero]
      · rw [Nat.le_div_iff_mul_le hm]
        refine Nat.le_of_mul_le_mul_right ?_ hr
        calc s * i / r * m * r = s * i / r * r * m := by ring
          _ ≤ s * i * m := Nat.mul_le_mul_right _ (Nat.div_mul_le_self _ _)
          _ = s * (m * i) := by ring
          _ ≤ s * (p * r) := Nat.mul_le_mul_left _ hover
          _ = p * s * r := by ring
    have hclaim : (p - p * s / m) * r + (net + kept) * r ≤ p * r := by
      rw [← Nat.add_mul]
      exact Nat.mul_le_mul_right r (by omega)
    unfold Covers at *
    rw [Nat.add_mul] at hclaim
    rw [Nat.sub_mul a]
    omega
  · -- else what is left of it is less than what the rest of the shares is worth
    have hrest : (p - p * s / m) * r ≤ (m - s) * i + r := by
      rcases Nat.eq_zero_or_pos m with rfl | hm
      · have hzero : p * r = 0 := by omega
        have hsub : (p - p * s / 0) * r ≤ p * r := Nat.mul_le_mul_right r (Nat.sub_le _ _)
        omega
      · have hfrac : p * s < (p * s / m + 1) * m := by
          rw [Nat.mul_comm _ m]
          exact Nat.lt_mul_div_succ _ hm
        have hgoal : (p - p * s / m) * m ≤ p * (m - s) + m := by
          rw [Nat.sub_mul, Nat.mul_sub]
          rw [Nat.add_mul, Nat.one_mul] at hfrac
          omega
        refine Nat.le_of_mul_le_mul_right ?_ hm
        calc (p - p * s / m) * r * m = (p - p * s / m) * m * r := by ring
          _ ≤ (p * (m - s) + m) * r := Nat.mul_le_mul_right r hgoal
          _ = p * r * (m - s) + r * m := by ring
          _ ≤ m * i * (m - s) + r * m :=
              Nat.add_le_add_right (Nat.mul_le_mul_right _ hunder) _
          _ = ((m - s) * i + r) * m := by ring
    have hshares : (n + m + lock) * i = n * i + (m - s) * i + s * i + lock * i := by
      obtain ⟨d, hd⟩ := Nat.exists_eq_add_of_le hs
      rw [show m - s = d by omega, hd]
      ring
    unfold Covers at *
    rw [hshares] at hall
    rw [Nat.sub_mul a]
    omega

end Exit

end Scadium.Lib.ShareIndex

/-! # Early exits -/

namespace Scadium.Lib.EarlyExit

open ShareIndex

variable (r d : Nat)

/-- What is paid of a worth of `g`. -/
def paid (g : Nat) : Nat := g - g / d

/-- The index after `s` of `t` shares left. -/
def raised (t i s : Nat) : Nat := i + s * i / r / d * r / (t - s)

/-- What the parts are paid. -/
def paidInParts : (t i : Nat) → List Nat → Nat
  | _, _, [] => 0
  | t, i, s :: ss => paid d (s * i / r) + paidInParts (t - s) (raised r d t i s) ss

/-- What the raises above the index `i₀` add to the worth of the parts. -/
def gainInParts (i₀ : Nat) : (t i : Nat) → List Nat → Nat
  | _, _, [] => 0
  | t, i, s :: ss => s * (i - i₀) + gainInParts i₀ (t - s) (raised r d t i s) ss

variable {r d} {t i : Nat}

theorem le_raised (s : Nat) : i ≤ raised r d t i s := Nat.le_add_right _ _

theorem paid_add_kept (g : Nat) : paid d g + g / d = g :=
  Nat.sub_add_cancel (Nat.div_le_self g d)

/-- What is paid, of a worth that is rounded down, from above. -/
theorem mul_paid_le (hd : 0 < d) (g : Nat) : d * paid d g ≤ (d - 1) * g + (d - 1) := by
  have hfrac : g < d * (g / d + 1) := Nat.lt_mul_div_succ g hd
  have hsplit : d * paid d g + d * (g / d) = d * g := by rw [← Nat.mul_add, paid_add_kept]
  have hone : (d - 1) * g + g = d * g := by
    rw [← Nat.succ_mul, Nat.succ_eq_add_one, Nat.sub_add_cancel hd]
  rw [Nat.mul_add, Nat.mul_one] at hfrac
  omega

/-- And from below. -/
theorem le_mul_paid (hd : 0 < d) (g : Nat) : (d - 1) * g ≤ d * paid d g := by
  have hfloor : d * (g / d) ≤ g := Nat.mul_div_le g d
  have hsplit : d * paid d g + d * (g / d) = d * g := by rw [← Nat.mul_add, paid_add_kept]
  have hone : (d - 1) * g + g = d * g := by
    rw [← Nat.succ_mul, Nat.succ_eq_add_one, Nat.sub_add_cancel hd]
  omega

/-- Each part is paid by the index it meets. -/
theorem mul_paidInParts_le (hd : 0 < d) {i₀ : Nat} (ss : List Nat) (hi : i₀ ≤ i) :
    d * r * paidInParts r d t i ss ≤
      (d - 1) * (ss.sum * i₀ + gainInParts r d i₀ t i ss + ss.length * r) := by
  induction ss generalizing t i with
  | nil => simp [paidInParts]
  | cons s ss ih =>
    have hrest := ih (t := t - s) (hi.trans (le_raised (r := r) (d := d) (t := t) s))
    have hfloor : s * i / r * r ≤ s * i := Nat.div_mul_le_self _ _
    have hworth : s * i = s * i₀ + s * (i - i₀) := by rw [← Nat.mul_add, Nat.add_sub_cancel' hi]
    have hpart : d * r * paid d (s * i / r) ≤
        (d - 1) * (s * i₀ + s * (i - i₀) + r) := by
      calc d * r * paid d (s * i / r) = d * paid d (s * i / r) * r := by ring
        _ ≤ ((d - 1) * (s * i / r) + (d - 1)) * r := Nat.mul_le_mul_right _ (mul_paid_le hd _)
        _ = (d - 1) * (s * i / r * r + r) := by ring
        _ ≤ (d - 1) * (s * i₀ + s * (i - i₀) + r) := Nat.mul_le_mul_left _ (by omega)
    simp only [paidInParts, gainInParts, List.sum_cons, List.length_cons]
    calc d * r * (paid d (s * i / r) + paidInParts r d (t - s) (raised r d t i s) ss)
      _ = d * r * paid d (s * i / r)
          + d * r * paidInParts r d (t - s) (raised r d t i s) ss := by ring
      _ ≤ (d - 1) * (s * i₀ + s * (i - i₀) + r)
          + (d - 1) * (ss.sum * i₀ + gainInParts r d i₀ (t - s) (raised r d t i s) ss
            + ss.length * r) := Nat.add_le_add hpart hrest
      _ = _ := by ring

/-- Leaving in parts, against leaving at once. -/
theorem paidInParts_le (hr : 0 < r) (hd : 0 < d) (ss : List Nat) :
    paidInParts r d t i ss ≤ paid d (ss.sum * i / r) + ss.length
      + ((d - 1) * gainInParts r d i t i ss) ⌈/⌉ (d * r) := by
  have hparts := mul_paidInParts_le (r := r) (t := t) hd ss (Nat.le_refl i)
  have hunit : 0 < d * r := Nat.mul_pos hd hr
  have hceil : (d - 1) * gainInParts r d i t i ss ≤
      d * r * (((d - 1) * gainInParts r d i t i ss) ⌈/⌉ (d * r)) :=
    (ceilDiv_le_iff_le_mul hunit).mp (Nat.le_refl _)
  have hwhole : (d - 1) * (ss.sum * i) ≤ d * r * paid d (ss.sum * i / r) + (d - 1) * r := by
    have hfrac : ss.sum * i < r * (ss.sum * i / r + 1) := Nat.lt_mul_div_succ _ hr
    calc (d - 1) * (ss.sum * i) ≤ (d - 1) * (r * (ss.sum * i / r + 1)) :=
          Nat.mul_le_mul_left _ (Nat.le_of_lt hfrac)
      _ = (d - 1) * (ss.sum * i / r) * r + (d - 1) * r := by ring
      _ ≤ d * paid d (ss.sum * i / r) * r + (d - 1) * r :=
          Nat.add_le_add_right (Nat.mul_le_mul_right _ (le_mul_paid hd _)) _
      _ = d * r * paid d (ss.sum * i / r) + (d - 1) * r := by ring
  -- compared in units of `1 / (d * r)`, with less than one unit for each part and one more
  refine Nat.le_of_lt_succ ?_
  refine Nat.lt_of_mul_lt_mul_left (a := d * r) ?_
  have hround : (d - 1) * (ss.length * r + r) < d * r * (ss.length + 1) := by
    calc (d - 1) * (ss.length * r + r) = (d - 1) * (r * (ss.length + 1)) := by ring
      _ < d * (r * (ss.length + 1)) := by
          refine Nat.mul_lt_mul_of_pos_right (by omega) ?_
          exact Nat.mul_pos hr (by omega)
      _ = d * r * (ss.length + 1) := by ring
  have hsplit : (d - 1) * (ss.sum * i + gainInParts r d i t i ss + ss.length * r) =
      (d - 1) * (ss.sum * i) + (d - 1) * gainInParts r d i t i ss + (d - 1) * (ss.length * r) := by
    ring
  have hround' : (d - 1) * (ss.length * r + r) = (d - 1) * (ss.length * r) + (d - 1) * r := by ring
  calc d * r * paidInParts r d t i ss
    _ ≤ (d - 1) * (ss.sum * i) + (d - 1) * gainInParts r d i t i ss
        + (d - 1) * (ss.length * r) := by omega
    _ < d * r * paid d (ss.sum * i / r) + d * r * (ss.length + 1)
        + d * r * (((d - 1) * gainInParts r d i t i ss) ⌈/⌉ (d * r)) := by omega
    _ = _ := by
        rw [Nat.succ_eq_add_one]
        ring

/-- What the parts are paid stays within the worth at the start: a penalty
kept is worth no more to the shares left than it was to those that paid it. -/
theorem paidInParts_mul_le (ss : List Nat) (hle : ss.sum ≤ t) :
    paidInParts r d t i ss * r ≤ ss.sum * i := by
  induction ss generalizing t i with
  | nil => simp [paidInParts]
  | cons s ss ih =>
    simp only [paidInParts, List.sum_cons] at hle ⊢
    have hrest := ih (t := t - s) (i := raised r d t i s) (by omega)
    have hraise := mul_raise_le (i := i) (r := r) (t := t - s) (n := ss.sum) (by omega)
      (s * i / r / d)
    have hfloor : s * i / r * r ≤ s * i := Nat.div_mul_le_self _ _
    have hworth : (paid d (s * i / r) + s * i / r / d) * r = s * i / r * r := by
      rw [paid_add_kept]
    rw [Nat.add_mul] at hworth
    rw [Nat.add_mul, Nat.add_mul]
    unfold raised at hrest ⊢
    omega

end Scadium.Lib.EarlyExit
