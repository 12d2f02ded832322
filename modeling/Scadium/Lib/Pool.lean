/-
Scadium.Lib.Pool — pools that members join while they are open and that
are closed once, over the members they have at that moment.

`Step` is one atomic action: a guarded `join`, a `close` of an open pool
that records the members it covers, or nothing. `Inv` says that a pool is
closed at most once and that every member of a closed pool is in the one
closing. `Simulates` is how a system with tables and transactions reuses
it: an abstraction function under which each of its steps is a `Step`.
-/
import Mathlib.Data.List.Nodup
import Mathlib.Data.Set.Insert
import Scadium.Lib.Runs

namespace Scadium.Lib.Pool

variable {ι μ σ ε : Type*}

/-- The closed pools, all members, and the closings so far with the members
each of them covered, the last one first. -/
structure State (ι μ : Type*) where
  closed : Set ι
  members : Set μ
  closings : List (ι × Set μ)

/-- One atomic action. -/
inductive Step (poolOf : μ → ι) : State ι μ → State ι μ → Prop
  | skip (s : State ι μ) : Step poolOf s s
  | join (s : State ι μ) (ms : Set μ) (hopen : ∀ m ∈ ms, poolOf m ∉ s.closed) :
      Step poolOf s { s with members := ms ∪ s.members }
  | close (s : State ι μ) (i : ι) (hopen : i ∉ s.closed) :
      Step poolOf s
        { closed := insert i s.closed
          members := s.members
          closings := (i, {m | m ∈ s.members ∧ poolOf m = i}) :: s.closings }

/-- Closed at most once, and over all the members. -/
structure Inv (poolOf : μ → ι) (s : State ι μ) : Prop where
  once : (s.closings.map Prod.fst).Nodup
  closed : ∀ c ∈ s.closings, c.1 ∈ s.closed
  covers : ∀ m ∈ s.members, poolOf m ∈ s.closed → ∃ c ∈ s.closings, c.1 = poolOf m ∧ m ∈ c.2

variable {poolOf : μ → ι} {s t : State ι μ}

/-- With no closing yet, the invariant asks that nobody is in a closed pool. -/
theorem Inv.init (hclosings : s.closings = [])
    (hmembers : ∀ m ∈ s.members, poolOf m ∉ s.closed) : Inv poolOf s where
  once := by simp [hclosings]
  closed := by simp [hclosings]
  covers m hm hc := absurd hc (hmembers m hm)

theorem Inv.step (hi : Inv poolOf s) (h : Step poolOf s t) : Inv poolOf t := by
  cases h with
  | skip => exact hi
  | join ms hopen =>
    refine ⟨hi.once, hi.closed, ?_⟩
    intro m hm hc
    rcases hm with hnew | hold
    · exact absurd hc (hopen m hnew)
    · exact hi.covers m hold hc
  | close i hopen =>
    refine ⟨?_, ?_, ?_⟩
    · -- a pool in an earlier closing was closed already
      refine List.nodup_cons.mpr ⟨?_, hi.once⟩
      intro hmem
      obtain ⟨c, hc, rfl⟩ := List.mem_map.mp hmem
      exact hopen (hi.closed c hc)
    · intro c hc
      rcases List.mem_cons.mp hc with rfl | hold
      · exact Set.mem_insert _ _
      · exact Set.mem_insert_of_mem _ (hi.closed c hold)
    · intro m hm hc
      rcases hc with heq | hold
      · exact ⟨_, List.mem_cons_self, heq.symm, hm, heq⟩
      · obtain ⟨c, hmem, hcover⟩ := hi.covers m hm hold
        exact ⟨c, List.mem_cons_of_mem _ hmem, hcover⟩

/-! ## Systems with pools -/

/-- Each step of the system is a step of its pools. -/
def Simulates (step : σ → ε → Option σ) (poolOf : μ → ι) (abs : σ → State ι μ) : Prop :=
  ∀ x e x', step x e = some x' → Step poolOf (abs x) (abs x')

/-- Every run of a system with pools keeps the invariant of the pools. -/
theorem Simulates.inv {step : σ → ε → Option σ} {abs : σ → State ι μ}
    (hsim : Simulates step poolOf abs) {x y : σ} {es : List ε} (hx : Inv poolOf (abs x))
    (hrun : run step x es = some y) : Inv poolOf (abs y) :=
  run_invariant (P := fun z => Inv poolOf (abs z))
    (fun z e z' hz hstep => hz.step (hsim z e z' hstep)) hx hrun

end Scadium.Lib.Pool
