/-
Scadium.Lib.Periodic — jobs that settle periods.

A run of a job targets one period, which it derives from the time it runs
at, and marks it settled if it finds something to settle. Between the runs
of a `History` anything may happen that marks no period. So a period is
settled once, or never: the first run that targets it and finds something
settles it (`settlements_eq`).
-/
import Mathlib.Data.List.Basic
import Mathlib.Data.List.Count

namespace Scadium.Lib.Periodic

variable {σ ν : Type}

/-- `ν` is what the environment answers in a run. -/
structure Job (σ ν : Type) where
  /-- The period is marked as settled. -/
  settled : σ → Nat → Bool
  /-- The period that a run at this time targets. -/
  period : Nat → Nat
  /-- A run at the time finds something to settle. -/
  finds : σ → Nat → ν → Bool
  run : σ → Nat → ν → σ
  run_settled : ∀ s t v q,
    settled (run s t v) q = (settled s q || (decide (period t = q) && finds s t v))

/-- A run, by the state it starts in, its time and its answers. -/
structure Run (σ ν : Type) where
  before : σ
  time : Nat
  answer : ν

variable (job : Job σ ν)

/-- The runs of a history, latest first. -/
inductive History (init : σ) : List (Run σ ν) → σ → Prop where
  | start : History init [] init
  | run {runs : List (Run σ ν)} {s : σ} (t : Nat) (v : ν) (h : History init runs s) :
      History init (⟨s, t, v⟩ :: runs) (job.run s t v)
  | other {runs : List (Run σ ν)} {s s' : σ} (h : History init runs s)
      (hsame : ∀ q, job.settled s' q = job.settled s q) : History init runs s'

/-- The run targets the period and finds something to settle. -/
def Job.Settles (q : Nat) (r : Run σ ν) : Prop :=
  job.period r.time = q ∧ job.finds r.before r.time r.answer = true

/-- The run marks the period. -/
def Job.marks (q : Nat) (r : Run σ ν) : Bool :=
  !job.settled r.before q && job.settled (job.run r.before r.time r.answer) q

/-- How often the period was settled. -/
def Job.settlements (q : Nat) (runs : List (Run σ ν)) : Nat := runs.countP (job.marks q)

/-- The period is settled at most once, and once exactly if some run settles
it. -/
structure Job.SettledOnce (q : Nat) (runs : List (Run σ ν)) : Prop where
  once : job.settlements q runs ≤ 1
  settled_iff : job.settlements q runs = 1 ↔ ∃ r ∈ runs, job.Settles q r

variable {job} {init s : σ} {runs : List (Run σ ν)} {q : Nat}

/-- A period that is settled was settled once, by a run that targets it. -/
theorem settlements_eq (h : History job init runs s) (hinit : job.settled init q = false) :
    job.settlements q runs = (if job.settled s q then 1 else 0) ∧
      (job.settled s q = true ↔ ∃ r ∈ runs, job.Settles q r) := by
  induction h with
  | start => simp [Job.settlements, hinit]
  | other h hsame ih =>
    rw [hsame]
    exact ih
  | @run runs s t v h ih =>
    obtain ⟨hcount, hsettled⟩ := ih
    have hrun : job.settled (job.run s t v) q = true ↔
        job.settled s q = true ∨ job.Settles q ⟨s, t, v⟩ := by
      rw [job.run_settled, Job.Settles]
      simp
    constructor
    · rw [Job.settlements, List.countP_cons, ← Job.settlements, hcount]
      cases hs : job.settled s q with
      | true => simp [Job.marks, hs, hrun.mpr (.inl hs)]
      | false => simp [Job.marks, hs]
    · rw [hrun, hsettled, List.exists_mem_cons_iff, or_comm]

theorem settled_once (h : History job init runs s) (hinit : job.settled init q = false) :
    job.SettledOnce q runs := by
  obtain ⟨hcount, hsettled⟩ := settlements_eq h hinit
  constructor
  · rw [hcount]
    split <;> simp
  · rw [← hsettled, hcount]
    split <;> simp_all

end Scadium.Lib.Periodic
