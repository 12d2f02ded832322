/-
Scadium.Lib.EventLog — systems that log what they do.

A view is what the events so far amount to: `apply` is what an event adds to
it, and `allowed` says which events may come next. If each step of a system
logs what its state becomes, legally, then after any run the state is the view
of the log, and the log is legal (`record_legal`). Facts about all runs are
then facts about legal logs: a key that an event may only take while it is free
is taken once, and what is taken was taken by an event before.
-/
import Mathlib.Data.List.Pairwise
import Scadium.Lib.Runs

namespace Scadium.Lib.EventLog

variable {ν ε κ : Type*}

/-- Each event is allowed by the view of those before. -/
def Legal (allowed : ν → ε → Prop) (apply : ν → ε → ν) : ν → List ε → Prop
  | _, [] => True
  | v, e :: es => allowed v e ∧ Legal allowed apply (apply v e) es

variable {allowed : ν → ε → Prop} {apply : ν → ε → ν} {v : ν} {e : ε} {es fs : List ε}

@[simp] theorem legal_nil : Legal allowed apply v [] := trivial

@[simp] theorem legal_singleton : Legal allowed apply v [e] ↔ allowed v e := by
  simp [Legal]

theorem legal_append : Legal allowed apply v (es ++ fs) ↔
    Legal allowed apply v es ∧ Legal allowed apply (es.foldl apply v) fs := by
  induction es generalizing v with
  | nil => simp
  | cons e es ih => simp [Legal, ih, and_assoc]

/-- An event of a legal log was allowed when it came. -/
theorem Legal.at (h : Legal allowed apply v (es ++ e :: fs)) :
    Legal allowed apply v es ∧ allowed (es.foldl apply v) e := by
  obtain ⟨hes, hrest⟩ := legal_append.mp h
  exact ⟨hes, hrest.1⟩

/-- What holds after a legal log held before it, or came with an event of it. -/
theorem Legal.origin {P : ν → Prop} {Q : ε → Prop}
    (hstep : ∀ v e, allowed v e → P (apply v e) → P v ∨ Q e) (h : Legal allowed apply v es)
    (hP : P (es.foldl apply v)) : P v ∨ ∃ e ∈ es, Q e := by
  induction es generalizing v with
  | nil => exact .inl hP
  | cons e es ih =>
    obtain hP | ⟨f, hf, hQ⟩ := ih h.2 hP
    · exact (hstep v e h.1 hP).imp_right fun hQ => ⟨e, List.mem_cons_self .., hQ⟩
    · exact .inr ⟨f, List.mem_cons_of_mem _ hf, hQ⟩

/-! ## Keys that are taken once -/

section Keys

variable {key : ε → Option κ} (taken : ν → κ → Prop)

/-- What is taken was taken before the log, or by an event of it. -/
theorem Legal.taken_iff
    (htake : ∀ v e k, allowed v e → (taken (apply v e) k ↔ taken v k ∨ key e = some k)) {k : κ}
    (h : Legal allowed apply v es) :
    taken (es.foldl apply v) k ↔ taken v k ∨ k ∈ es.filterMap key := by
  induction es generalizing v with
  | nil => simp
  | cons e es ih =>
    rw [List.foldl_cons, ih h.2, htake v e k h.1]
    cases hkey : key e with
    | none => simp [hkey]
    | some => simp [hkey, or_assoc, eq_comm]

/-- A key that is only taken while it is free is taken once. -/
theorem Legal.keys_nodup
    (htake : ∀ v e k, allowed v e → (taken (apply v e) k ↔ taken v k ∨ key e = some k))
    (hfree : ∀ v e k, allowed v e → key e = some k → ¬ taken v k)
    (h : Legal allowed apply v es) :
    (es.filterMap key).Nodup ∧ ∀ k ∈ es.filterMap key, ¬ taken v k := by
  induction es generalizing v with
  | nil => simp
  | cons e es ih =>
    obtain ⟨hnodup, hnot⟩ := ih h.2
    cases hkey : key e with
    | none =>
      simp only [List.filterMap_cons, hkey]
      refine ⟨hnodup, ?_⟩
      intro k hk hold
      exact hnot k hk ((htake v e k h.1).mpr (.inl hold))
    | some j =>
      simp only [List.filterMap_cons, hkey, List.nodup_cons, List.mem_cons, forall_eq_or_imp]
      refine ⟨⟨?_, hnodup⟩, hfree v e j h.1 hkey, ?_⟩
      · intro hj
        exact hnot j hj ((htake v e j h.1).mpr (.inr hkey))
      · intro k hk hold
        exact hnot k hk ((htake v e k h.1).mpr (.inl hold))

/-- Where a key is taken once, its event is the only one. -/
theorem eq_of_keys_nodup (hnodup : (es.filterMap key).Nodup) {k : κ} {e e' : ε} (he : e ∈ es)
    (he' : e' ∈ es) (hkey : key e = some k) (hkey' : key e' = some k) : e = e' := by
  by_contra hne
  have : Std.Symm fun a a' : ε => ∀ x, key a = some x → ∀ y, key a' = some y → x ≠ y :=
    ⟨fun _ _ h x hx y hy => (h y hy x hx).symm⟩
  exact (List.pairwise_filterMap.mp hnodup).forall he he' hne k hkey k hkey' rfl

end Keys

/-! ## Systems with their logs -/

section Record

variable {σ α : Type*}

/-- The events of a step are added to the log. -/
def record (step : σ → α → Option (σ × List ε)) (s : σ × List ε) (a : α) :
    Option (σ × List ε) :=
  (step s.1 a).map fun r => (r.1, s.2 ++ r.2)

variable {step : σ → α → Option (σ × List ε)}

theorem record_eq_some {s t : σ × List ε} {a : α} :
    record step s a = some t ↔ ∃ s' es, step s.1 a = some (s', es) ∧ t = (s', s.2 ++ es) := by
  unfold record
  cases step s.1 a with
  | none => simp
  | some r =>
    constructor
    · intro h
      cases h
      exact ⟨r.1, r.2, rfl, rfl⟩
    · rintro ⟨_, _, hr, rfl⟩
      cases hr
      rfl

/-- If every step logs, legally, what its state becomes, then so does every
run. -/
theorem record_legal (Inv : σ → Prop) (view : σ → ν)
    (hstep : ∀ s a s' es, Inv s → step s a = some (s', es) →
      Inv s' ∧ Legal allowed apply (view s) es ∧ view s' = es.foldl apply (view s))
    {s t : σ} {as : List α} {log : List ε} (hs : Inv s)
    (hrun : run (record step) (s, []) as = some (t, log)) :
    Inv t ∧ Legal allowed apply (view s) log ∧ view t = log.foldl apply (view s) := by
  refine run_invariant (P := fun r : σ × List ε => Inv r.1 ∧
    Legal allowed apply (view s) r.2 ∧ view r.1 = r.2.foldl apply (view s)) ?_ ?_ hrun
  · rintro ⟨u, _⟩ a r ⟨hinv, hlegal, hview⟩ hr
    obtain ⟨u', es, hu, rfl⟩ := record_eq_some.mp hr
    obtain ⟨hinv', hes, hview'⟩ := hstep u a u' es hinv hu
    rw [hview] at hes hview'
    exact ⟨hinv', legal_append.mpr ⟨hlegal, hes⟩, by rw [hview', List.foldl_append]⟩
  · exact ⟨hs, legal_nil, rfl⟩

/-- The log only grows. -/
theorem log_grows {s t : σ × List ε} {as : List α}
    (hrun : run (record step) s as = some t) : s.2 <+: t.2 := by
  refine run_invariant (P := fun r : σ × List ε => s.2 <+: r.2) ?_ (List.prefix_refl _) hrun
  intro u a r hu hr
  obtain ⟨_, _, -, rfl⟩ := record_eq_some.mp hr
  exact hu.trans (List.prefix_append _ _)

end Record

end Scadium.Lib.EventLog
