/-
Scadium.Lib.ConstantProduct — a pool of two reserves with shares, over the
natural numbers.

A pool is three numbers: `x` and `y`, the reserves, and `l`, the shares
outstanding. What a share is worth is measured by `x * y / l ^ 2`;
`WorthLe` compares two pools by it, cross-multiplied. The rules say which
roundings keep it: a deposit that rounds the amounts taken up, a withdrawal
that rounds the amounts paid down, and a trade that rounds its output down.
`Backed` is the invariant that follows, `l ^ 2 ≤ x * y`.
-/
import Mathlib.Algebra.Order.Floor.Div
import Mathlib.Tactic.Linarith
import Mathlib.Tactic.Ring

namespace Scadium.Lib.ConstantProduct

/-- The reserves are worth at least the shares. -/
def Backed (x y l : Nat) : Prop := l * l ≤ x * y

/-- A share of the second pool is worth at least a share of the first. -/
def WorthLe (x y l x' y' l' : Nat) : Prop := x * y * (l' * l') ≤ x' * y' * (l * l)

variable {x y l x' y' l' : Nat}

/-- Each reserve alone keeps pace with the shares. -/
theorem WorthLe.of_each (hx : x * l' ≤ x' * l) (hy : y * l' ≤ y' * l) :
    WorthLe x y l x' y' l' := by
  unfold WorthLe
  calc x * y * (l' * l') = (x * l') * (y * l') := by ring
    _ ≤ (x' * l) * (y' * l) := Nat.mul_le_mul hx hy
    _ = x' * y' * (l * l) := by ring

/-- The shares stay and the product of the reserves does not fall. -/
theorem WorthLe.of_product (h : x * y ≤ x' * y') : WorthLe x y l x' y' l :=
  Nat.mul_le_mul_right _ h

/-- Backed shares stay backed while their worth does not fall. -/
theorem Backed.of_worthLe (hb : Backed x y l) (hl : 0 < l) (h : WorthLe x y l x' y' l') :
    Backed x' y' l' := by
  have hsquare : 0 < l * l := Nat.mul_pos hl hl
  unfold Backed WorthLe at *
  refine Nat.le_of_mul_le_mul_right ?_ hsquare
  calc l' * l' * (l * l) ≤ l' * l' * (x * y) := Nat.mul_le_mul_left _ hb
    _ = x * y * (l' * l') := by ring
    _ ≤ x' * y' * (l * l) := h

theorem Backed.left_pos (hb : Backed x y l) (hl : 0 < l) : 0 < x := by
  have hsquare : 0 < l * l := Nat.mul_pos hl hl
  unfold Backed at hb
  by_contra hx
  have hzero : x = 0 := by omega
  rw [hzero, Nat.zero_mul] at hb
  omega

theorem Backed.right_pos (hb : Backed x y l) (hl : 0 < l) : 0 < y := by
  have hswap : Backed y x l := by
    unfold Backed at *
    rwa [Nat.mul_comm y x]
  exact hswap.left_pos hl

theorem Backed.mono (hb : Backed x y l) (hx : x ≤ x') (hy : y ≤ y') : Backed x' y' l :=
  Nat.le_trans hb (Nat.mul_le_mul hx hy)

/-! ## Deposits -/

/-- What `n` new shares take of a reserve, rounded up. -/
theorem deposit_keeps_pace {n : Nat} (hl : 0 < l) :
    x * (l + n) ≤ (x + n * x ⌈/⌉ l) * l := by
  have hceil : n * x ≤ l * (n * x ⌈/⌉ l) := (ceilDiv_le_iff_le_mul hl).mp (Nat.le_refl _)
  calc x * (l + n) = x * l + n * x := by ring
    _ ≤ x * l + l * (n * x ⌈/⌉ l) := Nat.add_le_add_left hceil _
    _ = (x + n * x ⌈/⌉ l) * l := by ring

/-- It is no more than what was offered for them. -/
theorem deposit_le_offered {n offered : Nat} (hl : 0 < l) (hn : n ≤ offered * l / x) :
    n * x ⌈/⌉ l ≤ offered := by
  rw [ceilDiv_le_iff_le_mul hl]
  calc n * x ≤ offered * l / x * x := Nat.mul_le_mul_right _ hn
    _ ≤ offered * l := Nat.div_mul_le_self _ _
    _ = l * offered := Nat.mul_comm _ _

/-! ## Withdrawals -/

/-- What `n` shares are paid of a reserve, rounded down. -/
theorem withdraw_keeps_pace (n : Nat) : x * (l - n) ≤ (x - n * x / l) * l := by
  have hfloor : n * x / l * l ≤ n * x := Nat.div_mul_le_self _ _
  rw [Nat.mul_sub, Nat.sub_mul]
  have hcomm : x * n = n * x := Nat.mul_comm _ _
  omega

/-- Shares that have just been bought are not paid more than they cost. -/
theorem round_trip_le {n : Nat} (hl : 0 < l) :
    n * (x + n * x ⌈/⌉ l) / (l + n) ≤ n * x ⌈/⌉ l := by
  have hceil : n * x ≤ l * (n * x ⌈/⌉ l) := (ceilDiv_le_iff_le_mul hl).mp (Nat.le_refl _)
  refine Nat.div_le_of_le_mul ?_
  calc n * (x + n * x ⌈/⌉ l) = n * x + n * (n * x ⌈/⌉ l) := by ring
    _ ≤ l * (n * x ⌈/⌉ l) + n * (n * x ⌈/⌉ l) := Nat.add_le_add_right hceil _
    _ = (l + n) * (n * x ⌈/⌉ l) := by ring

/-! ## Trades -/

/-- What `net` of one asset buys of the other, rounded down. -/
theorem trade_lt {net : Nat} (hx : 0 < x) (hy : 0 < y) : net * y / (x + net) < y := by
  rw [Nat.div_lt_iff_lt_mul (by omega)]
  have hgap : 0 < y * x := Nat.mul_pos hy hx
  calc net * y < net * y + y * x := by omega
    _ = y * (x + net) := by ring

/-- The product does not fall, whatever of the input stays as a fee. -/
theorem trade_product_le {net paid : Nat} (hx : 0 < x) (hnet : net ≤ paid) :
    x * y ≤ (x + paid) * (y - net * y / (x + net)) := by
  have hfloor : net * y / (x + net) * (x + net) ≤ net * y := Nat.div_mul_le_self _ _
  have hle : net * y / (x + net) ≤ y := by
    refine Nat.div_le_of_le_mul ?_
    exact Nat.mul_le_mul_right _ (by omega)
  obtain ⟨rest, hrest⟩ := Nat.exists_eq_add_of_le hle
  rw [show y - net * y / (x + net) = rest by omega]
  have hkeep : x * y ≤ (x + net) * rest := by
    have hexpand : (x + net) * y
        = net * y / (x + net) * (x + net) + (x + net) * rest := by
      conv_lhs => rw [hrest]
      ring
    have hsum : (x + net) * y = x * y + net * y := by ring
    omega
  exact Nat.le_trans hkeep (Nat.mul_le_mul_right _ (by omega))

end Scadium.Lib.ConstantProduct
