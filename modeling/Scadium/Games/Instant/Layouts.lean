/-
Scadium.Games.Instant.Layouts — the layouts of mines, keno and tower are
unbiased (`packages/fair/src/{mines,keno,tower}.ts`).

The three draws are one loop over the floats of the stream, and the loop looks
at a float only through the index it chooses: `choices` is the vector of these
indices. `drawBy` is the draw by a vector, and `Unbiased` what is expected of
it. The rest says that every layout is such a draw.
-/
import Mathlib.Data.List.Sort
import Scadium.Fair.Hash
import Scadium.Games.Instant.Boards
import Scadium.Lib.FisherYates

namespace Scadium.Shared.KENO

def CELLS : Nat := 40
def DRAWS : Nat := 10

end Scadium.Shared.KENO

namespace Scadium.Games.Instant

open Scadium.Fair Scadium.Shared
open Scadium.Lib.FisherYates (Choices shuffled)
open scoped Nat

/-- The same draw out of the `cells` numbers from `first` on. -/
def drawSortedFrom (first : Nat) (float : Nat → ℚ) (cells n : Nat) : List Nat :=
  ((shuffleFrom float cells (cells - 1) ((List.range cells).map (· + first))).take n).insertionSort
    (· ≤ ·)

def kenoDraw {Seed : Type} (floats : Floats Seed) (serverSeed : Seed) (clientSeed : JsString)
    (nonce : Nat) : List Nat :=
  drawSortedFrom 1 (floats serverSeed clientSeed nonce) KENO.CELLS KENO.DRAWS

/-- The floats of `floatsFromHmac`. -/
def hmacFloats (sha : Sha) : Floats String :=
  fun serverSeed clientSeed nonce i =>
    floatStream sha serverSeed (String.ofList clientSeed) nonce i

/-! ## Draws by a vector of choices -/

/-- The first `k` of the shuffled numbers, counted from `first`, sorted. -/
def drawBy (first : Nat) {n : Nat} (c : Choices n) (k : Nat) : List Nat :=
  (((shuffled c).take k).map (· + first)).insertionSort (· ≤ ·)

/-- A draw of `k` out of `n` numbers from `first` on, with no favourites. -/
structure Unbiased (first n k : Nat) (draw : Choices n → List Nat) : Prop where
  ascending : ∀ c, (draw c).Pairwise (· < ·)
  length : ∀ c, (draw c).length = k
  inRange : ∀ c, ∀ x ∈ draw c, first ≤ x ∧ x < first + n
  /-- Every set of `k` of them is drawn by equally many vectors. -/
  even : ∀ S : Finset (Fin n), S.card = k →
    (Finset.univ.filter fun c => (draw c).toFinset = S.image fun i => i.val + first).card =
      k ! * (n - k)!

section DrawBy

variable {n k : Nat} (first : Nat)

theorem mem_drawBy {c : Choices n} {x : Nat} :
    x ∈ drawBy first c k ↔ ∃ i ∈ Lib.FisherYates.selection c k, i.val + first = x := by
  rw [drawBy, List.mem_insertionSort, List.mem_map]
  constructor
  · rintro ⟨y, hy, rfl⟩
    have hlt : y < n := by
      have hmem := (Lib.FisherYates.shuffled_perm c).mem_iff.mp (List.mem_of_mem_take hy)
      simpa using hmem
    exact ⟨⟨y, hlt⟩, Lib.FisherYates.mem_take_shuffled.mp hy, rfl⟩
  · rintro ⟨i, hi, rfl⟩
    exact ⟨i, Lib.FisherYates.mem_take_shuffled.mpr hi, rfl⟩

theorem drawBy_ascending (c : Choices n) : (drawBy first c k).Pairwise (· < ·) := by
  have hnodup : (shuffled c).Nodup :=
    (Lib.FisherYates.shuffled_perm c).nodup_iff.mpr List.nodup_range
  have hshift : (((shuffled c).take k).map (· + first)).Nodup :=
    ((List.take_sublist k _).nodup hnodup).map (add_left_injective first)
  have hdistinct : (drawBy first c k).Nodup :=
    (List.perm_insertionSort _ _).nodup_iff.mpr hshift
  have hsorted : (drawBy first c k).Pairwise (· ≤ ·) := List.pairwise_insertionSort _ _
  exact (hsorted.and hdistinct).imp fun h => lt_of_le_of_ne h.1 h.2

theorem drawBy_unbiased (hk : k ≤ n) : Unbiased first n k fun c => drawBy first c k where
  ascending c := drawBy_ascending first c
  length c := by simp [drawBy, List.length_insertionSort, hk]
  inRange c x hx := by
    obtain ⟨i, -, rfl⟩ := (mem_drawBy first).mp hx
    have hi := i.isLt
    omega
  even S hS := by
    rw [← Lib.FisherYates.card_filter_selection hS]
    refine congrArg Finset.card (Finset.filter_congr fun c _ => ?_)
    have hset : (drawBy first c k).toFinset =
        (Lib.FisherYates.selection c k).image fun i => i.val + first := by
      ext x
      simp [mem_drawBy]
    have hinj : Function.Injective fun i : Fin n => i.val + first := by
      intro i j hij
      exact Fin.ext (Nat.add_right_cancel hij)
    rw [hset, (Finset.image_injective hinj).eq_iff]

end DrawBy

/-! ## The choices of a stream -/

/-- A stream of floats in `[0, 1)`. -/
abbrev UnitFloats := Nat → Set.Ico (0 : ℚ) 1

/-- `Math.floor(float * (i + 1))` is an index up to `i`. -/
theorem floor_lt (x : Set.Ico (0 : ℚ) 1) (i : Nat) : ⌊(x : ℚ) * (i + 1)⌋.toNat < i + 1 := by
  have hpos : (0 : ℚ) < i + 1 := by positivity
  have hlt : (x : ℚ) * (i + 1) < i + 1 := by
    calc (x : ℚ) * (i + 1) < 1 * (i + 1) := mul_lt_mul_of_pos_right x.2.2 hpos
      _ = i + 1 := one_mul _
  have hfloor : ⌊(x : ℚ) * (i + 1)⌋ < (i + 1 : Int) := by
    rw [Int.floor_lt]
    exact_mod_cast hlt
  omega

/-- The indices the loop chooses. -/
def choices (float : UnitFloats) (n : Nat) : Choices n :=
  fun i => ⟨⌊(float (n - 1 - i) : ℚ) * (i + 1)⌋.toNat, floor_lt _ _⟩

theorem choices_surjective (n : Nat) :
    Function.Surjective fun float : UnitFloats => choices float n := by
  intro c
  have hunit : ∀ i : Nat, ((c.index i : ℚ) / (i + 1)) ∈ Set.Ico (0 : ℚ) 1 := by
    intro i
    have hle : (c.index i : ℚ) ≤ i := by exact_mod_cast c.index_le i
    refine ⟨by positivity, ?_⟩
    rw [div_lt_one (by positivity)]
    linarith
  refine ⟨fun j => ⟨_, hunit (n - 1 - j)⟩, ?_⟩
  funext i
  have hi := i.isLt
  have hback : n - 1 - (n - 1 - i.val) = i.val := by omega
  have hindex : c.index i.val = (c i).val := by simp [Lib.FisherYates.Choices.index]
  refine Fin.ext ?_
  show ⌊((c.index (n - 1 - (n - 1 - i.val)) : ℚ) / ((n - 1 - (n - 1 - i.val) : Nat) + 1)) *
    (i + 1)⌋.toNat = (c i).val
  rw [hback, div_mul_cancel₀ _ (by positivity), hindex]
  simp

/-! ## The code's loop -/

theorem shuffleFrom_eq (float : Nat → ℚ) (cells i : Nat) (arr : List Nat) :
    shuffleFrom float cells i arr =
      Lib.FisherYates.shuffle 0 (fun i => ⌊float (cells - 1 - i) * (i + 1)⌋.toNat) i arr := by
  induction i generalizing arr with
  | zero => rfl
  | succ i ih =>
    rw [shuffleFrom, ih, Lib.FisherYates.shuffle]
    simp only [Nat.cast_add, Nat.cast_one]
    rfl

theorem drawSortedFrom_eq (first : Nat) (float : UnitFloats) (n k : Nat) :
    drawSortedFrom first (fun i => float i) n k = drawBy first (choices float n) k := by
  have hindex : ∀ i ≤ n - 1, 0 < n →
      ⌊(float (n - 1 - i) : ℚ) * (i + 1)⌋.toNat = (choices float n).index i := by
    intro i hi hn
    have hlt : i < n := by omega
    simp [Lib.FisherYates.Choices.index, hlt, choices]
  have hshuffle : shuffleFrom (fun i => float i) n (n - 1) ((List.range n).map (· + first)) =
      (shuffled (choices float n)).map (· + first) := by
    obtain rfl | hn := Nat.eq_zero_or_pos n
    · rfl
    rw [shuffleFrom_eq, Lib.FisherYates.shuffle_congr fun i hi => hindex i hi hn, shuffled,
      Lib.FisherYates.shuffle_map (d := 0) 0 _ (choices float n).index_le (by simp)]
  rw [drawSortedFrom, drawBy, hshuffle, List.map_take]

theorem drawSorted_eq (float : UnitFloats) (n k : Nat) :
    drawSorted (fun i => float i) n k = drawBy 0 (choices float n) k := by
  rw [← drawSortedFrom_eq, drawSortedFrom, drawSorted]
  simp

/-! ## The three games -/

section Games

variable (sha : Sha) (serverSeed : String) (clientSeed : JsString) (nonce : Nat)

/-- The stream of a bet, from float `skip` on. -/
def betFloats (skip : Nat) : UnitFloats :=
  fun i => ⟨_, floatStream_mem sha serverSeed (String.ofList clientSeed) nonce (skip + i)⟩

/-- Each layout is the draw of its own choices, every vector of choices is
possible, each shuffles the numbers its own way, and no set is favoured. -/
theorem layouts_unbiased {n k : Nat} (hk : k ≤ n) (rows first : Nat) :
    Unbiased first n k (fun c => drawBy first c k) ∧
    Function.Bijective (fun c : Choices n =>
      (⟨shuffled c, Lib.FisherYates.shuffled_perm c⟩ : {l : List Nat // l.Perm (List.range n)})) ∧
    Function.Surjective (fun float : UnitFloats => choices float n) ∧
    (∀ float : UnitFloats,
      drawSortedFrom first (fun i => float i) n k = drawBy first (choices float n) k) ∧
    mineField (hmacFloats sha) serverSeed clientSeed nonce n k =
      drawBy 0 (choices (betFloats sha serverSeed clientSeed nonce 0) n) k ∧
    kenoDraw (hmacFloats sha) serverSeed clientSeed nonce =
      drawBy 1 (choices (betFloats sha serverSeed clientSeed nonce 0) KENO.CELLS) KENO.DRAWS ∧
    towerTraps (hmacFloats sha) serverSeed clientSeed nonce rows n (n - k) =
      (List.range rows).map fun r =>
        drawBy 0 (choices (betFloats sha serverSeed clientSeed nonce (r * n)) n) k := by
  have hstream : hmacFloats sha serverSeed clientSeed nonce =
      fun i => (betFloats sha serverSeed clientSeed nonce 0 i : ℚ) := by
    funext i
    simp [hmacFloats, betFloats]
  refine ⟨drawBy_unbiased first hk, Lib.FisherYates.shuffled_bijective, choices_surjective n,
    fun float => drawSortedFrom_eq first float n k, ?_, ?_, ?_⟩
  · rw [mineField, hstream, drawSorted_eq]
  · rw [kenoDraw, hstream, drawSortedFrom_eq]
  · refine List.map_congr_left fun r _ => ?_
    rw [Nat.sub_sub_self hk, ← drawSorted_eq]
    rfl

end Games

namespace Sample

/-- A digest that is always zero. -/
def zeroSha : Sha := ⟨fun _ => 0, fun _ _ => 0⟩

end Sample

/-- Five mines on the board of 25 cells. -/
theorem layouts_unbiased_board :
    (5 ≤ MINES.CELLS) ∧ Unbiased 0 MINES.CELLS 5 (fun c => drawBy 0 c 5) ∧
    mineField (hmacFloats Sample.zeroSha) "seed" [] 1 MINES.CELLS 5 =
      drawBy 0 (choices (betFloats Sample.zeroSha "seed" [] 1 0) MINES.CELLS) 5 := by
  have hk : 5 ≤ MINES.CELLS := by decide
  obtain ⟨hunbiased, -, -, -, hfield, -, -⟩ :=
    layouts_unbiased Sample.zeroSha "seed" [] 1 hk TOWER.ROWS 0
  exact ⟨hk, hunbiased, hfield⟩

end Scadium.Games.Instant
