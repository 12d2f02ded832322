/-
Scadium.Lib.FisherYates — the shuffle that swaps every position, from the last
down to the second, with a chosen one not above it.

`shuffle` is the loop, on lists. A vector of choices is an index up to `i` for
each position `i`; `permEquiv` is what the loop does to the positions, and it
is a bijection from the vectors of choices to the permutations: the choice for
the last position says what ends up there, and the others what happens to the
rest. So of two sets of the same size, the first places go to the one for as
many vectors as to the other (`card_selection_eq`).
-/
import Mathlib.Data.Fin.Tuple.Basic
import Mathlib.Data.Fintype.Fin
import Mathlib.Data.Fintype.Perm
import Mathlib.Data.Fintype.Pi
import Mathlib.Data.Fintype.Powerset
import Mathlib.Data.List.FinRange
import Mathlib.Data.Nat.Choose.Basic
import Mathlib.GroupTheory.Perm.Option
import Mathlib.Logic.Equiv.Fin.Basic
import Mathlib.Logic.Equiv.Fintype

namespace Scadium.Lib.FisherYates

open scoped Nat

/-! ## The loop -/

section Loop

variable {α : Type*} (d : α)

/-- The entries at `i` and `j` trade places. -/
def swap (arr : List α) (i j : Nat) : List α := (arr.set i (arr.getD j d)).set j (arr.getD i d)

/-- From index `i` down to 1. -/
def shuffle (choice : Nat → Nat) : (i : Nat) → List α → List α
  | 0, arr => arr
  | i + 1, arr => shuffle choice i (swap d arr (i + 1) (choice (i + 1)))

variable {d}

@[simp] theorem length_swap (arr : List α) (i j : Nat) : (swap d arr i j).length = arr.length := by
  simp [swap]

theorem getD_swap {arr : List α} {i j : Nat} (hi : i < arr.length) (hj : j < arr.length)
    (m : Nat) : (swap d arr i j).getD m d =
      arr.getD (if m = i then j else if m = j then i else m) d := by
  simp only [swap, List.getD_eq_getElem?_getD, List.getElem?_set, List.length_set]
  by_cases hmj : j = m
  · subst hmj
    by_cases hji : j = i
    · simp [hji, hi]
    · simp [hji, hj]
  · by_cases hmi : i = m
    · subst hmi
      simp [hmj, hi]
    · simp [hmj, hmi, Ne.symm hmj, Ne.symm hmi]

theorem swap_append {xs : List α} {i j : Nat} (hi : i < xs.length) (hj : j < xs.length)
    (ys : List α) : swap d (xs ++ ys) i j = swap d xs i j ++ ys := by
  simp only [swap, List.getD_eq_getElem?_getD, List.getElem?_append_left hi,
    List.getElem?_append_left hj, List.set_append_left _ _ hi]
  rw [List.set_append_left _ _ (by simpa using hj)]

theorem swap_map {β : Type*} (e : β) (f : α → β) {arr : List α} {i j : Nat} (hi : i < arr.length)
    (hj : j < arr.length) : swap e (arr.map f) i j = (swap d arr i j).map f := by
  simp [swap, List.map_set, List.getD_eq_getElem?_getD, hi, hj]

/-- The loop does not look at the entries. -/
theorem shuffle_map {β : Type*} (e : β) (f : α → β) {choice : Nat → Nat}
    (hchoice : ∀ i, choice i ≤ i) {i : Nat} {arr : List α} (hi : i ≤ arr.length - 1) :
    shuffle e choice i (arr.map f) = (shuffle d choice i arr).map f := by
  induction i generalizing arr with
  | zero => rfl
  | succ i ih =>
    have hle := hchoice (i + 1)
    rw [shuffle, shuffle, swap_map (d := d) e f (by omega) (by omega)]
    exact ih (by simp; omega)

/-- The loop leaves alone what is above its first index. -/
theorem shuffle_append {choice : Nat → Nat} (hchoice : ∀ i, choice i ≤ i) {i : Nat} {xs : List α}
    (hi : i < xs.length) (ys : List α) :
    shuffle d choice i (xs ++ ys) = shuffle d choice i xs ++ ys := by
  induction i generalizing xs with
  | zero => rfl
  | succ i ih =>
    have hle := hchoice (i + 1)
    simp only [shuffle]
    rw [swap_append hi (by omega), ih (by simp; omega)]

theorem shuffle_congr {choice choice' : Nat → Nat} {i : Nat} (h : ∀ k ≤ i, choice k = choice' k)
    (arr : List α) : shuffle d choice i arr = shuffle d choice' i arr := by
  induction i generalizing arr with
  | zero => rfl
  | succ i ih =>
    simp only [shuffle, h (i + 1) (Nat.le_refl _)]
    exact ih (fun k hk => h k (by omega)) _

end Loop

/-! ## The permutation of the positions -/

/-- An index up to `i` for every position `i`. -/
abbrev Choices (n : Nat) := (i : Fin n) → Fin (i + 1)

/-- The choices as the loop asks for them. -/
def Choices.index {n : Nat} (c : Choices n) (i : Nat) : Nat := if h : i < n then c ⟨i, h⟩ else 0

theorem Choices.index_le {n : Nat} (c : Choices n) (i : Nat) : c.index i ≤ i := by
  unfold Choices.index
  split
  · rename_i h
    have hlt := (c ⟨i, h⟩).isLt
    exact Nat.le_of_lt_succ hlt
  · exact Nat.zero_le i

/-- Where each position gets its entry from. -/
def permEquiv : (n : Nat) → Choices n ≃ Equiv.Perm (Fin n)
  | 0 => Equiv.ofUnique _ _
  | n + 1 =>
      (Fin.snocEquiv fun i : Fin (n + 1) => Fin (i + 1)).symm.trans
        ((Equiv.prodCongr finSuccEquivLast (permEquiv n)).trans
          (Equiv.Perm.decomposeOption.symm.trans (Equiv.permCongr finSuccEquivLast.symm)))

section Perm

variable {n : Nat} (c : Choices (n + 1))

theorem permEquiv_last : permEquiv (n + 1) c (Fin.last n) = c (Fin.last n) := by
  simp [permEquiv, Fin.snocEquiv]

theorem permEquiv_castSucc (k : Fin n) : permEquiv (n + 1) c k.castSucc =
    Equiv.swap (Fin.last n) (c (Fin.last n)) (permEquiv n (Fin.init c) k).castSucc := by
  have hswap := finSuccEquivLast.injective.swap_apply (Fin.last n) (c (Fin.last n))
    (permEquiv n (Fin.init c) k).castSucc
  rw [finSuccEquivLast_last, finSuccEquivLast_castSucc] at hswap
  simp only [permEquiv, Fin.snocEquiv, Equiv.trans_apply, Equiv.permCongr_apply, Equiv.symm_symm,
    Equiv.symm_apply_eq]
  simpa using hswap

/-- The entry that the last swap brings to a position. -/
theorem swap_last_val {n : Nat} (j k : Fin (n + 1)) : (Equiv.swap (Fin.last n) j k).val =
    if k.val = n then j.val else if k.val = j.val then n else k.val := by
  rw [Equiv.swap_apply_def]
  by_cases hlast : k = Fin.last n
  · simp [hlast]
  · have hval : k.val ≠ n := fun h => hlast (Fin.ext h)
    by_cases hj : k = j
    · rw [if_neg hlast, if_neg hval, if_pos hj, if_pos (congrArg Fin.val hj)]
      rfl
    · have hjval : k.val ≠ j.val := fun h => hj (Fin.ext h)
      rw [if_neg hlast, if_neg hval, if_neg hj, if_neg hjval]

theorem index_init {n : Nat} (c : Choices (n + 1)) {k : Nat} (hk : k < n) :
    Choices.index (Fin.init c : Choices n) k = c.index k := by
  simp [Choices.index, hk, Nat.lt_succ_of_lt hk, Fin.init]

end Perm

/-- The loop reads every entry from where the permutation says. -/
theorem shuffle_eq {α : Type*} (d : α) : ∀ {n : Nat} (c : Choices (n + 1)) {arr : List α},
    arr.length = n + 1 → shuffle d c.index n arr =
      List.ofFn fun k : Fin (n + 1) => arr.getD (permEquiv (n + 1) c k) d
  | 0, c, arr, hlen => by
      obtain ⟨a, rfl⟩ := List.length_eq_one_iff.mp hlen
      simp [shuffle]
  | n + 1, c, arr, hlen => by
      have hj : c.index (n + 1) = c (Fin.last (n + 1)) := by simp [Choices.index, Fin.last]
      have hle := c.index_le (n + 1)
      have hlen' : (swap d arr (n + 1) (c.index (n + 1))).length = n + 2 := by simpa using hlen
      have hget : ∀ m, (swap d arr (n + 1) (c.index (n + 1))).getD m d =
          arr.getD (if m = n + 1 then c.index (n + 1)
            else if m = c.index (n + 1) then n + 1 else m) d :=
        getD_swap (by omega) (by omega)
      obtain hnil | ⟨xs, a, hxs⟩ :=
        List.eq_nil_or_concat' (swap d arr (n + 1) (c.index (n + 1)))
      · simp [hnil] at hlen'
      have hlenxs : xs.length = n + 1 := by simpa [hxs] using hlen'
      rw [hxs] at hget
      have hinit : ∀ k ≤ n, c.index k = Choices.index (Fin.init c : Choices (n + 1)) k :=
        fun k hk => (index_init c (by omega)).symm
      have hbelow : ∀ k : Fin (n + 1), xs.getD k d =
          arr.getD (Equiv.swap (Fin.last (n + 1)) (c (Fin.last (n + 1))) k.castSucc) d := by
        intro k
        have hk := hget k
        rw [hj, List.getD_eq_getElem?_getD, List.getElem?_append_left (by omega)] at hk
        rw [swap_last_val, List.getD_eq_getElem?_getD, hk]
        rfl
      have hlast : a = arr.getD (c (Fin.last (n + 1))) d := by
        have hk := hget (n + 1)
        rw [List.getD_eq_getElem?_getD, List.getElem?_append_right (by omega), hlenxs] at hk
        simpa [hj] using hk
      rw [shuffle, hxs, shuffle_append c.index_le (by omega), List.ofFn_succ_last,
        shuffle_congr hinit, shuffle_eq d _ hlenxs]
      simp only [permEquiv_castSucc, permEquiv_last, ← hlast, hbelow]

/-! ## All of it -/

section Range

variable {n : Nat}

/-- The shuffled numbers below `n`. -/
def shuffled (c : Choices n) : List Nat := shuffle 0 c.index (n - 1) (List.range n)

theorem shuffled_eq (c : Choices n) :
    shuffled c = List.ofFn fun i : Fin n => (permEquiv n c i : Nat) := by
  cases n with
  | zero => rfl
  | succ n =>
    have hlen : (List.range (n + 1)).length = n + 1 := List.length_range
    have hread := shuffle_eq 0 c hlen
    refine hread.trans (congrArg List.ofFn (funext fun i => ?_))
    have hlt : (permEquiv (n + 1) c i : Nat) < (List.range (n + 1)).length := by
      rw [hlen]
      exact Fin.is_lt _
    rw [List.getD_eq_getElem?_getD, List.getElem?_eq_getElem hlt, List.getElem_range,
      Option.getD_some]

@[simp] theorem length_shuffled (c : Choices n) : (shuffled c).length = n := by
  simp [shuffled_eq]

theorem shuffled_perm (c : Choices n) : (shuffled c).Perm (List.range n) := by
  rw [shuffled_eq, ← List.map_coe_finRange_eq_range, List.ofFn_eq_map]
  have hperm : ((List.finRange n).map (permEquiv n c)).Perm (List.finRange n) :=
    (permEquiv n c).map_finRange_perm
  simpa [List.map_map, Function.comp_def] using hperm.map Fin.val

/-- Each vector of choices is one permutation, and each permutation one vector. -/
theorem shuffled_bijective : Function.Bijective
    fun c : Choices n =>
      (⟨shuffled c, shuffled_perm c⟩ : {l : List Nat // l.Perm (List.range n)}) := by
  constructor
  · intro c c' heq
    have hlist : shuffled c = shuffled c' := congrArg Subtype.val heq
    rw [shuffled_eq, shuffled_eq] at hlist
    have hfun := List.ofFn_injective hlist
    refine (permEquiv n).injective (Equiv.ext fun i => Fin.ext ?_)
    exact congrFun hfun i
  · rintro ⟨l, hl⟩
    have hlen : l.length = n := by simpa using hl.length_eq
    have hlt : ∀ i : Fin n, i.val < l.length := fun i => hlen ▸ i.isLt
    have hmem : ∀ i : Fin n, l.get ⟨i.val, hlt i⟩ < n := by
      intro i
      simpa using hl.mem_iff.mp (List.get_mem l ⟨i.val, hlt i⟩)
    let f : Fin n → Fin n := fun i => ⟨l.get ⟨i.val, hlt i⟩, hmem i⟩
    have hnodup : l.Nodup := hl.nodup_iff.mpr List.nodup_range
    have hinj : Function.Injective f := by
      intro i j hij
      have hval : l.get ⟨i.val, hlt i⟩ = l.get ⟨j.val, hlt j⟩ := congrArg Fin.val hij
      have hplace := List.nodup_iff_injective_get.mp hnodup hval
      exact Fin.ext (Fin.mk.inj hplace)
    let σ : Equiv.Perm (Fin n) := Equiv.ofBijective f (Finite.injective_iff_bijective.mp hinj)
    refine ⟨(permEquiv n).symm σ, Subtype.ext ?_⟩
    show shuffled _ = l
    rw [shuffled_eq, Equiv.apply_symm_apply]
    refine List.ext_getElem (by simp [hlen]) ?_
    intro i hi hi'
    simp [σ, f]

/-! ## What comes first -/

/-- The numbers in the first `k` places. -/
def selection (c : Choices n) (k : Nat) : Finset (Fin n) :=
  (Finset.univ.filter fun i : Fin n => i.val < k).image (permEquiv n c)

theorem mem_take_shuffled {c : Choices n} {k : Nat} {x : Fin n} :
    x.val ∈ (shuffled c).take k ↔ x ∈ selection c k := by
  simp only [selection, Finset.mem_image, Finset.mem_filter, Finset.mem_univ, true_and,
    List.mem_take_iff_getElem, length_shuffled]
  constructor
  · rintro ⟨i, hi, hx⟩
    refine ⟨⟨i, by omega⟩, Nat.lt_of_lt_of_le hi (Nat.min_le_left ..), Fin.ext ?_⟩
    rw [← hx]
    simp [shuffled_eq]
  · rintro ⟨i, _, rfl⟩
    refine ⟨i.val, by omega, ?_⟩
    simp [shuffled_eq]

/-- One set is carried to another of the same size. -/
theorem exists_perm_image {S T : Finset (Fin n)} (h : S.card = T.card) :
    ∃ τ : Equiv.Perm (Fin n), S.image τ = T := by
  refine ⟨(Finset.equivOfCardEq h).extendSubtype, ?_⟩
  refine Finset.eq_of_subset_of_card_le ?_ ?_
  · intro y hy
    obtain ⟨x, hx, rfl⟩ := Finset.mem_image.mp hy
    exact (Finset.equivOfCardEq h).extendSubtype_mem x hx
  · rw [Finset.card_image_of_injective _ (Equiv.injective _), h]

/-- Two sets of one size are selected by equally many vectors of choices. -/
theorem card_selection_eq {S T : Finset (Fin n)} (h : S.card = T.card) (k : Nat) :
    (Finset.univ.filter fun c : Choices n => selection c k = S).card =
      (Finset.univ.filter fun c : Choices n => selection c k = T).card := by
  obtain ⟨τ, rfl⟩ := exists_perm_image h
  let e : Choices n ≃ Choices n :=
    (permEquiv n).trans ((Equiv.mulLeft τ).trans (permEquiv n).symm)
  have he : ∀ c, selection (e c) k = (selection c k).image τ := by
    intro c
    simp [selection, e, Finset.image_image, Equiv.Perm.coe_mul]
  refine Finset.card_equiv e fun c => ?_
  rw [Finset.mem_filter, Finset.mem_filter, he, (Finset.image_injective τ.injective).eq_iff]
  simp

theorem card_selection {c : Choices n} {k : Nat} (hk : k ≤ n) : (selection c k).card = k := by
  rw [selection, Finset.card_image_of_injective _ (permEquiv n c).injective]
  rw [Fin.card_filter_val_lt, Nat.min_eq_right hk]

theorem card_choices : Fintype.card (Choices n) = n ! := by
  rw [Fintype.card_congr (permEquiv n), Fintype.card_perm, Fintype.card_fin]

/-- How many vectors select a set. -/
theorem card_filter_selection {S : Finset (Fin n)} {k : Nat} (h : S.card = k) :
    (Finset.univ.filter fun c : Choices n => selection c k = S).card = k ! * (n - k)! := by
  have hk : k ≤ n := by simpa [h] using S.card_le_univ
  have hmaps : ∀ c ∈ (Finset.univ : Finset (Choices n)),
      selection c k ∈ Finset.powersetCard k Finset.univ := by
    intro c _
    simp [Finset.mem_powersetCard, card_selection hk]
  have hsum := Finset.card_eq_sum_card_fiberwise hmaps
  have hsame : ∀ T ∈ Finset.powersetCard k (Finset.univ : Finset (Fin n)),
      (Finset.univ.filter fun c : Choices n => selection c k = T).card =
        (Finset.univ.filter fun c : Choices n => selection c k = S).card := by
    intro T hT
    rw [Finset.mem_powersetCard] at hT
    exact card_selection_eq (by rw [hT.2, h]) k
  rw [Finset.sum_congr rfl hsame, Finset.sum_const, Finset.card_powersetCard, Finset.card_univ,
    Finset.card_univ, card_choices, Fintype.card_fin, smul_eq_mul,
    ← Nat.choose_mul_factorial_mul_factorial hk, mul_assoc] at hsum
  exact (Nat.eq_of_mul_eq_mul_left (Nat.choose_pos hk) hsum).symm

end Range

end Scadium.Lib.FisherYates
