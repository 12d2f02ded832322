/-
Scadium.Lib.Weights — the weight of a list, when one element of it changes.

A component keeps its parts in a list: slots that are addressed by position,
or records that are told apart by a key. The weight of the list is the sum of
what its elements weigh. Each lemma moves the old weight of the one element
that changes to the other side, so that no subtraction is needed.
-/
import Mathlib.Algebra.BigOperators.Group.List.Basic
import Mathlib.Algebra.Order.Ring.Nat
import Mathlib.Data.List.Nodup
import Mathlib.Algebra.Order.Monoid.Canonical.Defs
import Mathlib.Data.List.Basic

namespace Scadium.Lib

variable {α κ : Type*} [DecidableEq κ]

/-- What the elements of a list weigh together. -/
def weight (g : α → Nat) (l : List α) : Nat := (l.map g).sum

@[simp] theorem weight_nil (g : α → Nat) : weight g [] = 0 := rfl

@[simp] theorem weight_cons (g : α → Nat) (a : α) (l : List α) :
    weight g (a :: l) = g a + weight g l := rfl

@[simp] theorem weight_append (g : α → Nat) (l m : List α) :
    weight g (l ++ m) = weight g l + weight g m := by
  simp [weight]

theorem weight_map {β : Type*} (g : β → Nat) (f : α → β) (l : List α) :
    weight g (l.map f) = weight (g ∘ f) l := by
  simp [weight]

theorem weight_congr {g h : α → Nat} {l : List α} (heq : ∀ a ∈ l, g a = h a) :
    weight g l = weight h l := by
  simp only [weight]
  rw [List.map_congr_left heq]

theorem weight_mono {g h : α → Nat} {l : List α} (hle : ∀ a ∈ l, g a ≤ h a) :
    weight g l ≤ weight h l := by
  induction l with
  | nil => exact Nat.le_refl _
  | cons a l ih =>
    have hhead := hle a (List.mem_cons_self ..)
    have htail := ih fun b hb => hle b (List.mem_cons_of_mem _ hb)
    simp only [weight_cons]
    omega

theorem weight_eq_zero {g : α → Nat} {l : List α} (h : ∀ a ∈ l, g a = 0) : weight g l = 0 := by
  induction l with
  | nil => rfl
  | cons a l ih =>
    rw [weight_cons, h a List.mem_cons_self, ih fun b hb => h b (List.mem_cons_of_mem a hb)]

/-- Counting one element. -/
theorem weight_indicator [DecidableEq α] [BEq α] [LawfulBEq α] (a : α) (l : List α) :
    weight (fun b => if b = a then 1 else 0) l = l.count a := by
  induction l with
  | nil => rfl
  | cons b l ih =>
    rw [weight_cons, ih, List.count_cons, Nat.add_comm]
    simp

theorem weight_add (g h : α → Nat) (l : List α) :
    weight (fun a => g a + h a) l = weight g l + weight h l := by
  induction l with
  | nil => rfl
  | cons a l ih =>
    simp only [weight_cons, ih]
    omega

/-- One element weighs no more than the list. -/
theorem le_weight {g : α → Nat} {l : List α} {a : α} (h : a ∈ l) : g a ≤ weight g l := by
  induction l with
  | nil => cases h
  | cons b l ih =>
    rw [weight_cons]
    rcases List.mem_cons.mp h with rfl | h
    · omega
    · have hle := ih h
      omega

/-- Whoever weighs nothing may be left out. -/
theorem weight_filter {g : α → Nat} {p : α → Bool} {l : List α}
    (h : ∀ a ∈ l, p a = false → g a = 0) : weight g (l.filter p) = weight g l := by
  induction l with
  | nil => rfl
  | cons a l ih =>
    have hrest := ih fun b hb => h b (List.mem_cons_of_mem a hb)
    cases hp : p a with
    | true => rw [List.filter_cons_of_pos hp, weight_cons, weight_cons, hrest]
    | false =>
      have hzero := h a List.mem_cons_self hp
      rw [List.filter_cons_of_neg (by simp [hp]), weight_cons, hrest]
      omega

theorem weight_perm (g : α → Nat) {l m : List α} (h : l.Perm m) : weight g l = weight g m :=
  (h.map g).sum_eq

/-! ## Slots -/

theorem weight_set (g : α → Nat) {l : List α} {i : Nat} {a : α} (h : l[i]? = some a) (b : α) :
    weight g (l.set i b) + g a = weight g l + g b := by
  induction l generalizing i with
  | nil => simp at h
  | cons c l ih =>
    cases i with
    | zero =>
      simp only [List.getElem?_cons_zero, Option.some.injEq] at h
      subst h
      simp only [List.set_cons_zero, weight_cons]
      omega
    | succ =>
      simp only [List.getElem?_cons_succ] at h
      have hrest := ih h
      simp only [List.set_cons_succ, weight_cons]
      omega

/-! ## Records with a key -/

variable (key : α → κ) (g : α → Nat) {l : List α} {a : α}

/-- The records with a key that is not there stay what they are. -/
theorem map_key_of_notMem {k : κ} (f : α → α) (h : k ∉ l.map key) :
    l.map (fun b => if key b = k then f b else b) = l := by
  calc l.map (fun b => if key b = k then f b else b)
    _ = l.map id := by
        refine List.map_congr_left fun b hb => if_neg ?_
        intro heq
        exact h (heq ▸ List.mem_map_of_mem hb)
    _ = l := List.map_id l

/-- An update of the one record with a key. -/
theorem weight_updateKey (f : α → α) (hnodup : (l.map key).Nodup) (ha : a ∈ l) :
    weight g (l.map fun b => if key b = key a then f b else b) + g a = weight g l + g (f a) := by
  induction l with
  | nil => cases ha
  | cons b l ih =>
    obtain ⟨hb, hnodup⟩ := List.nodup_cons.mp hnodup
    rcases List.mem_cons.mp ha with rfl | ha
    · rw [List.map_cons, if_pos rfl, map_key_of_notMem key f hb, weight_cons, weight_cons]
      omega
    · have hne : key b ≠ key a := fun heq => hb (heq ▸ List.mem_map_of_mem ha)
      have hrest := ih hnodup ha
      rw [List.map_cons, if_neg hne, weight_cons, weight_cons]
      omega

omit [DecidableEq κ] in
/-- The record with a key weighs something else, and no other does. -/
theorem weight_congr_key {g h : α → Nat} (hnodup : (l.map key).Nodup) (ha : a ∈ l)
    (heq : ∀ b ∈ l, key b ≠ key a → h b = g b) : weight h l + g a = weight g l + h a := by
  induction l with
  | nil => cases ha
  | cons b l ih =>
    obtain ⟨hb, hnodup⟩ := List.nodup_cons.mp hnodup
    rcases List.mem_cons.mp ha with rfl | ha
    · have hrest : weight h l = weight g l := by
        refine weight_congr fun c hc => heq c (List.mem_cons_of_mem _ hc) ?_
        intro hkey
        exact hb (hkey ▸ List.mem_map_of_mem hc)
      rw [weight_cons, weight_cons, hrest]
      omega
    · have hne : key b ≠ key a := fun hkey => hb (hkey ▸ List.mem_map_of_mem ha)
      have hrest := ih hnodup ha fun c hc => heq c (List.mem_cons_of_mem _ hc)
      rw [weight_cons, weight_cons, heq b List.mem_cons_self hne]
      omega

/-- The removal of the one record with a key. -/
theorem weight_deleteKey (hnodup : (l.map key).Nodup) (ha : a ∈ l) :
    weight g (l.filter fun b => key b != key a) + g a = weight g l := by
  induction l with
  | nil => cases ha
  | cons b l ih =>
    obtain ⟨hb, hnodup⟩ := List.nodup_cons.mp hnodup
    rcases List.mem_cons.mp ha with rfl | ha
    · have hrest : l.filter (fun c => key c != key a) = l := by
        refine List.filter_eq_self.mpr fun c hc => bne_iff_ne.mpr ?_
        intro heq
        exact hb (heq ▸ List.mem_map_of_mem hc)
      rw [List.filter_cons_of_neg (by simp), hrest, weight_cons]
      omega
    · have hne : key b ≠ key a := fun heq => hb (heq ▸ List.mem_map_of_mem ha)
      have hrest := ih hnodup ha
      rw [List.filter_cons_of_pos (by simpa using hne), weight_cons, weight_cons]
      omega

/-- The keys of an update that keeps them. -/
theorem keys_updateKey (k : κ) {f : α → α} (hf : ∀ b, key (f b) = key b) :
    (l.map fun b => if key b = k then f b else b).map key = l.map key := by
  rw [List.map_map]
  refine List.map_congr_left fun b _ => ?_
  by_cases h : key b = k
  · simp [h, hf]
  · simp [h]

/-! ## Consecutive half-open ranges of given widths

`rangesFrom c ws` lays the widths end to end from `c`. The ranges partition
`[c, c + ws.sum)`: each point of it is in exactly one of them, and no other
point is in any (`holds_unique`, `exists_holds`, `bounds_of_mem`). -/

variable {M : Type*} [AddCommMonoid M]

/-- The ranges of the widths `ws`, laid end to end from `c`. -/
def rangesFrom (c : M) : List M → List (M × M)
  | [] => []
  | w :: ws => (c, c + w) :: rangesFrom (c + w) ws

@[simp] theorem length_rangesFrom : ∀ (c : M) (ws : List M), (rangesFrom c ws).length = ws.length
  | _, [] => rfl
  | c, w :: ws => by simp [rangesFrom, length_rangesFrom (c + w) ws]

/-- The `i`-th range starts after the first `i` widths and is as wide as the
`i`-th width. -/
theorem getElem?_rangesFrom : ∀ (c : M) (ws : List M) (i : Nat),
    (rangesFrom c ws)[i]? = ws[i]?.map fun w => (c + (ws.take i).sum, c + (ws.take i).sum + w)
  | _, [], i => by simp [rangesFrom]
  | c, w :: ws, 0 => by simp [rangesFrom]
  | c, w :: ws, i + 1 => by
      rw [rangesFrom, List.getElem?_cons_succ, getElem?_rangesFrom (c + w) ws i]
      simp [add_assoc]

variable [LinearOrder M] {c t : M} {ws : List M}

/-- The point `t` is in the half-open range `r`. -/
def Holds (t : M) (r : M × M) : Prop := r.1 ≤ t ∧ t < r.2

/-- The ranges leave no gap. -/
theorem exists_holds : ∀ {c : M} {ws : List M}, c ≤ t → t < c + ws.sum →
    ∃ r ∈ rangesFrom c ws, Holds t r
  | c, [], hc, ht => by
      rw [List.sum_nil, add_zero] at ht
      exact absurd ht (not_lt.mpr hc)
  | c, w :: ws, hc, ht => by
      rcases lt_or_ge t (c + w) with hlt | hge
      · exact ⟨(c, c + w), List.mem_cons_self, hc, hlt⟩
      · rw [List.sum_cons, ← add_assoc] at ht
        obtain ⟨r, hr, hhold⟩ := exists_holds hge ht
        exact ⟨r, List.mem_cons_of_mem _ hr, hhold⟩

variable [CanonicallyOrderedAdd M]

/-- Every range lies in `[c, c + ws.sum)`. -/
theorem bounds_of_mem : ∀ {c : M} {ws : List M} {r : M × M}, r ∈ rangesFrom c ws →
    c ≤ r.1 ∧ r.1 ≤ r.2 ∧ r.2 ≤ c + ws.sum
  | c, [], r, h => by simp [rangesFrom] at h
  | c, w :: ws, r, h => by
      rw [List.sum_cons, ← add_assoc]
      rcases List.mem_cons.mp h with rfl | h
      · exact ⟨le_refl _, le_self_add, le_self_add⟩
      · obtain ⟨h1, h2, h3⟩ := bounds_of_mem h
        exact ⟨le_trans le_self_add h1, h2, h3⟩

/-- Ranges do not overlap: an earlier one ends before a later one starts. -/
theorem pairwise_rangesFrom : ∀ (c : M) (ws : List M),
    (rangesFrom c ws).Pairwise fun r r' => r.2 ≤ r'.1
  | _, [] => .nil
  | c, w :: ws => .cons (fun _ h => (bounds_of_mem h).1) (pairwise_rangesFrom (c + w) ws)

theorem holds_lt_sum (h : ∃ r ∈ rangesFrom c ws, Holds t r) : c ≤ t ∧ t < c + ws.sum := by
  obtain ⟨r, hr, h1, h2⟩ := h
  obtain ⟨hc, -, hs⟩ := bounds_of_mem hr
  exact ⟨le_trans hc h1, lt_of_lt_of_le h2 hs⟩

/-- No point is in two ranges. -/
theorem holds_unique {i j : Nat} {r r' : M × M} (hi : (rangesFrom c ws)[i]? = some r)
    (hj : (rangesFrom c ws)[j]? = some r') (h : Holds t r) (h' : Holds t r') : i = j := by
  obtain ⟨hilt, hir⟩ := List.getElem?_eq_some_iff.mp hi
  obtain ⟨hjlt, hjr⟩ := List.getElem?_eq_some_iff.mp hj
  have hpair := List.pairwise_iff_getElem.mp (pairwise_rangesFrom c ws)
  rcases Nat.lt_trichotomy i j with hlt | heq | hgt
  · have hle := hpair i j hilt hjlt hlt
    rw [hir, hjr] at hle
    exact absurd (lt_of_lt_of_le h.2 hle) (not_lt.mpr h'.1)
  · exact heq
  · have hle := hpair j i hjlt hilt hgt
    rw [hir, hjr] at hle
    exact absurd (lt_of_lt_of_le h'.2 hle) (not_lt.mpr h.1)

/-- `[c, c + ws.sum)` is partitioned: a point is in it exactly when one and
only one range holds it. -/
theorem existsUnique_holds : (c ≤ t ∧ t < c + ws.sum) ↔
    ∃! i : Nat, ∃ r, (rangesFrom c ws)[i]? = some r ∧ Holds t r := by
  constructor
  · rintro ⟨hc, ht⟩
    obtain ⟨r, hr, hhold⟩ := exists_holds hc ht
    obtain ⟨i, hi⟩ := List.getElem?_of_mem hr
    refine ⟨i, ⟨r, hi, hhold⟩, ?_⟩
    rintro j ⟨_, hj, hhold'⟩
    exact holds_unique hj hi hhold' hhold
  · intro h
    obtain ⟨i, ⟨r, hi, hhold⟩, -⟩ := h
    exact holds_lt_sum ⟨r, List.mem_of_getElem? hi, hhold⟩

end Scadium.Lib
