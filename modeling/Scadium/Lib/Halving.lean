/-
Scadium.Lib.Halving — what is emitted period by period.

A subsidy that halves every `d` periods pays, over any periods, no more than
`d` times twice the first subsidy (`sum_halvings_le`). `weight_le_sum_keys`
bounds what a list of payments weighs by what each of its periods may pay,
and `weight_pro_rata_le` what the shares of one payment come to.

The second part is a pool split in proportion to weights, each share rounded
down. The payments are a list of rows, each with the key of who is paid; rows
of zero are left out. `FairSplit` is what such a split owes its recipients: it
pays no more than the pool, leaves less than one unit for each recipient that
weighs anything, and never pays the heavier of two recipients less.
-/
import Mathlib.Algebra.BigOperators.Intervals
import Mathlib.Algebra.Order.Ring.GeomSum
import Scadium.Lib.Weights

namespace Scadium.Lib

open Finset (range)

/-- The subsidies of the first `n` eras of `d` periods. -/
theorem sum_eras_eq (d a n : Nat) :
    ∑ i ∈ range (d * n), a / 2 ^ (i / d) = d * ∑ k ∈ range n, a / 2 ^ k := by
  induction n with
  | zero => simp
  | succ n ih =>
    rw [Nat.mul_succ, Finset.sum_range_add, ih, Finset.sum_range_succ, Nat.mul_add]
    congr 1
    have hera : ∀ j ∈ range d, a / 2 ^ ((d * n + j) / d) = a / 2 ^ n := by
      intro j hj
      have hlt := Finset.mem_range.mp hj
      rw [Nat.mul_add_div (by omega), Nat.div_eq_of_lt hlt, Nat.add_zero]
    rw [Finset.sum_congr rfl hera]
    simp

/-- Any periods from `first` on. -/
theorem sum_halvings_le {d : Nat} (hd : 0 < d) (a first : Nat) {periods : Finset Nat}
    (h : ∀ q ∈ periods, first ≤ q) : ∑ q ∈ periods, a / 2 ^ ((q - first) / d) ≤ d * (2 * a) := by
  have hshift : ∑ q ∈ periods, a / 2 ^ ((q - first) / d) =
      ∑ i ∈ periods.image fun q => q - first, a / 2 ^ (i / d) := by
    rw [Finset.sum_image]
    intro p hp q hq heq
    have hp' := h p hp
    have hq' := h q hq
    simp only at heq
    omega
  obtain ⟨n, hn⟩ : ∃ n, (periods.image fun q => q - first) ⊆ range (d * n) := by
    refine ⟨(periods.image fun q => q - first).sup id + 1, ?_⟩
    intro i hi
    have hle : i ≤ (periods.image fun q => q - first).sup id := Finset.le_sup (f := id) hi
    refine Finset.mem_range.mpr ?_
    calc i < (periods.image fun q => q - first).sup id + 1 := Nat.lt_succ_of_le hle
      _ ≤ d * ((periods.image fun q => q - first).sup id + 1) := Nat.le_mul_of_pos_left _ hd
  calc ∑ q ∈ periods, a / 2 ^ ((q - first) / d)
      = ∑ i ∈ periods.image fun q => q - first, a / 2 ^ (i / d) := hshift
    _ ≤ ∑ i ∈ range (d * n), a / 2 ^ (i / d) := Finset.sum_le_sum_of_subset hn
    _ = d * ∑ k ∈ range n, a / 2 ^ k := sum_eras_eq d a n
    _ ≤ d * (2 * a) := by
        refine Nat.mul_le_mul_left d ?_
        have hgeom := Nat.geom_sum_le (le_refl 2) a n
        omega

/-! ## Payments by period -/

section Keys

variable {κ : Type*} [DecidableEq κ]

theorem weight_eq_sum_keys {l : List (κ × Nat)} {keys : Finset κ} (h : ∀ p ∈ l, p.1 ∈ keys) :
    weight Prod.snd l = ∑ q ∈ keys, weight Prod.snd (l.filter (·.1 = q)) := by
  induction l with
  | nil => simp
  | cons p l ih =>
    have hrest := ih fun p' hp' => h p' (List.mem_cons_of_mem p hp')
    have hone : ∀ q, weight Prod.snd ((p :: l).filter (·.1 = q)) =
        (if p.1 = q then p.2 else 0) + weight Prod.snd (l.filter (·.1 = q)) := by
      intro q
      by_cases hq : p.1 = q
      · simp [hq]
      · simp [hq]
    simp only [hone, Finset.sum_add_distrib, Finset.sum_ite_eq, h p List.mem_cons_self, if_true,
      weight_cons, hrest]

/-- Each key has its bound. -/
theorem weight_le_sum_keys {l : List (κ × Nat)} {keys : Finset κ} (h : ∀ p ∈ l, p.1 ∈ keys)
    {bound : κ → Nat} (hbound : ∀ q, weight Prod.snd (l.filter (·.1 = q)) ≤ bound q) :
    weight Prod.snd l ≤ ∑ q ∈ keys, bound q := by
  rw [weight_eq_sum_keys h]
  exact Finset.sum_le_sum fun q _ => hbound q

end Keys

/-! ## Shares -/

/-- Shares in proportion to weights, each rounded down. -/
theorem weight_pro_rata_le {α : Type*} (g : α → Nat) (pool total : Nat) (l : List α) :
    weight (fun a => pool * g a / total) l ≤ pool * weight g l / total := by
  induction l with
  | nil => simp
  | cons a l ih =>
    rw [weight_cons, weight_cons, Nat.mul_add]
    exact (Nat.add_le_add_left ih _).trans Nat.div_add_div_le_add_div

/-! ## A pool split by weight -/

variable {α β κ : Type*} [DecidableEq κ]

/-- What the rows pay to one key. -/
def received (key : β → κ) (amount : β → Nat) (rows : List β) (k : κ) : Nat :=
  weight amount (rows.filter fun r => key r = k)

structure FairSplit (pool : Nat) (key : α → κ) (w : α → Nat) (recipients : List α)
    (rowKey : β → κ) (amount : β → Nat) (rows : List β) : Prop where
  total_le : weight amount rows ≤ pool
  dust_lt : 0 < weight w recipients →
    pool < weight amount rows + recipients.countP fun x => 0 < w x
  monotone : ∀ x ∈ recipients, ∀ y ∈ recipients, w x ≤ w y →
    received rowKey amount rows (key x) ≤ received rowKey amount rows (key y)

section Floors

variable (w : α → Nat) (pool total : Nat)

/-- What the rounding takes: less than a unit from each that weighs anything. -/
theorem mul_weight_le (htotal : 0 < total) (xs : List α) :
    pool * weight w xs + xs.countP (fun x => 0 < w x) ≤
      total * (weight (fun x => pool * w x / total) xs + xs.countP fun x => 0 < w x) := by
  induction xs with
  | nil => simp
  | cons x xs ih =>
    have hdiv := Nat.div_add_mod (pool * w x) total
    have hmod := Nat.mod_lt (pool * w x) htotal
    by_cases hpos : 0 < w x
    · simp only [weight_cons, List.countP_cons, hpos, decide_true, if_true, Nat.mul_add] at *
      omega
    · have hzero : w x = 0 := by omega
      simpa [hzero] using ih

theorem pool_lt (xs : List α) (hpos : 0 < weight w xs) :
    pool < weight (fun x => pool * w x / weight w xs) xs + xs.countP fun x => 0 < w x := by
  have hle := mul_weight_le w pool (weight w xs) hpos xs
  have hcount : 0 < xs.countP fun x => 0 < w x := by
    rw [List.countP_pos_iff]
    by_contra hnone
    have hzero : weight w xs = 0 := by
      refine weight_eq_zero fun x hx => ?_
      by_contra hx0
      exact hnone ⟨x, hx, by simpa using Nat.pos_of_ne_zero hx0⟩
    omega
  rw [Nat.mul_comm pool] at hle
  exact Nat.lt_of_mul_lt_mul_left (a := weight w xs) (by omega)

end Floors

/-- One row for each key: a key receives its row. -/
theorem received_map {key : α → κ} {rowKey : β → κ} {amount : β → Nat} {mk : α → β}
    (hkey : ∀ x, rowKey (mk x) = key x) {xs : List α} (hnodup : (xs.map key).Nodup) {x : α}
    (hx : x ∈ xs) : received rowKey amount (xs.map mk) (key x) = amount (mk x) := by
  unfold received
  induction xs with
  | nil => cases hx
  | cons y ys ih =>
    obtain ⟨hy, hrest⟩ := List.nodup_cons.mp hnodup
    rcases List.mem_cons.mp hx with rfl | hmem
    · have hnone : (ys.map mk).filter (fun r => rowKey r = key x) = [] := by
        rw [List.filter_eq_nil_iff]
        intro r hr
        obtain ⟨z, hz, rfl⟩ := List.mem_map.mp hr
        rw [hkey, decide_eq_true_eq]
        intro heq
        exact hy (heq ▸ List.mem_map_of_mem hz)
      simp [hkey, hnone]
    · have hne : key y ≠ key x := by
        intro heq
        exact hy (heq ▸ List.mem_map_of_mem hmem)
      simpa [hkey, hne] using ih hrest hmem

/-- Rows of zero do not matter. -/
theorem received_filter (rowKey : β → κ) (amount : β → Nat) (rows : List β) (k : κ) :
    received rowKey amount (rows.filter fun r => 0 < amount r) k = received rowKey amount rows k := by
  unfold received
  rw [List.filter_comm]
  exact weight_filter fun r _ hr => by simpa using hr

/-- Shares rounded down, without those that are zero, are a fair split. -/
theorem fairSplit_floors {pool : Nat} {key : α → κ} {w : α → Nat} {recipients : List α}
    {rowKey : β → κ} {amount : β → Nat} {mk : α → β} (hnodup : (recipients.map key).Nodup)
    (hkey : ∀ x, rowKey (mk x) = key x)
    (hamount : ∀ x, amount (mk x) = pool * w x / weight w recipients) :
    FairSplit pool key w recipients rowKey amount
      ((recipients.map mk).filter fun r => 0 < amount r) := by
  have htotal : weight amount ((recipients.map mk).filter fun r => 0 < amount r) =
      weight (fun x => pool * w x / weight w recipients) recipients := by
    rw [weight_filter fun r _ hr => by simpa using hr, weight_map]
    exact weight_congr fun x _ => hamount x
  have hpaid : ∀ x ∈ recipients, received rowKey amount
      ((recipients.map mk).filter fun r => 0 < amount r) (key x) =
        pool * w x / weight w recipients := by
    intro x hx
    rw [received_filter, received_map hkey hnodup hx, hamount]
  refine ⟨?_, ?_, ?_⟩
  · rw [htotal]
    refine (weight_pro_rata_le w pool _ recipients).trans ?_
    exact Nat.div_le_of_le_mul (Nat.le_of_eq (Nat.mul_comm _ _))
  · intro hpos
    rw [htotal]
    exact pool_lt w pool recipients hpos
  · intro x hx y hy hle
    rw [hpaid x hx, hpaid y hy]
    exact Nat.div_le_div_right (Nat.mul_le_mul_left pool hle)

/-- The order of the recipients does not matter. -/
theorem FairSplit.perm {pool : Nat} {key : α → κ} {w : α → Nat} {xs ys : List α} {rowKey : β → κ}
    {amount : β → Nat} {rows : List β} (h : FairSplit pool key w xs rowKey amount rows)
    (hperm : xs.Perm ys) : FairSplit pool key w ys rowKey amount rows where
  total_le := h.total_le
  dust_lt hpos := by
    rw [← hperm.countP_eq]
    exact h.dust_lt (by rwa [weight_perm w hperm])
  monotone x hx y hy := h.monotone x (hperm.mem_iff.mpr hx) y (hperm.mem_iff.mpr hy)

end Scadium.Lib
