/-
Scadium.Lib.Runs — labelled runs of a partial step function.

A component is a state type `σ`, a label type `ε` (one label per atomic
action, environment choices included) and a partial step function
`step : σ → ε → Option σ`, where `none` means that the action is not
enabled. `run` folds the step function along a list of labels, so a run
is a list of labels and every statement about "every interleaving" is a
statement about every list.

`Along step ok s es` says that every label of the run from `s` meets
`ok`, a condition on the state BEFORE the step and on the label. The one
induction of the library is `run_induct`: what one admissible step
preserves, every admissible run preserves.

`does s e s'` says that the step from `s` to `s'` does something. What is done
only while a flag is down, and raises it, is done at most once in a run if no
step lowers the flag: `guarded_once`.
-/
import Mathlib.Data.List.Induction
import Mathlib.Logic.Basic

namespace Scadium.Lib

variable {σ ε : Type*}

/-- The state reached along a list of labels, if every label is enabled. -/
def run (step : σ → ε → Option σ) : σ → List ε → Option σ
  | s, [] => some s
  | s, e :: es =>
      match step s e with
      | some s' => run step s' es
      | none => none

/-- Every label of the run meets `ok` in the state it is fired from. -/
def Along (step : σ → ε → Option σ) (ok : σ → ε → Prop) : σ → List ε → Prop
  | _, [] => True
  | s, e :: es => ok s e ∧ ∀ s', step s e = some s' → Along step ok s' es

/-- What a run on given labels reaches can be looked at. -/
instance decidableReached {o : Option σ} {P : σ → Prop} [DecidablePred P] :
    Decidable (∃ s, o = some s ∧ P s) :=
  match o with
  | none => .isFalse fun ⟨_, h, _⟩ => by cases h
  | some s => decidable_of_iff (P s) (by simp)

variable {step : σ → ε → Option σ} {ok : σ → ε → Prop}

@[simp] theorem run_nil (s : σ) : run step s [] = some s := rfl

theorem run_cons_eq_some {s t : σ} {e : ε} {es : List ε} :
    run step s (e :: es) = some t ↔ ∃ s', step s e = some s' ∧ run step s' es = some t := by
  cases h : step s e with
  | none => simp [run, h]
  | some => simp [run, h]

theorem run_append {s t : σ} {es fs : List ε} :
    run step s (es ++ fs) = some t ↔ ∃ u, run step s es = some u ∧ run step u fs = some t := by
  induction es generalizing s with
  | nil => simp
  | cons e es ih =>
    simp only [List.cons_append, run_cons_eq_some, ih]
    constructor
    · rintro ⟨s', hs, u, hu, ht⟩
      exact ⟨u, ⟨s', hs, hu⟩, ht⟩
    · rintro ⟨u, ⟨s', hs, hu⟩, ht⟩
      exact ⟨s', hs, u, hu, ht⟩

/-- A step whose outcome is known. -/
theorem Along.cons {s s' : σ} {e : ε} {es : List ε} (hok : ok s e) (hstep : step s e = some s')
    (hrest : Along step ok s' es) : Along step ok s (e :: es) := by
  refine ⟨hok, ?_⟩
  intro s'' hs''
  rw [hstep] at hs''
  cases hs''
  exact hrest

/-- Along a given run the condition can be checked. -/
instance decidableAlong [∀ s e, Decidable (ok s e)] : ∀ (es : List ε) (s : σ),
    Decidable (Along step ok s es)
  | [], _ => .isTrue trivial
  | e :: es, s =>
      match h : step s e with
      | none => decidable_of_iff (ok s e) (by simp [Along, h])
      | some s' =>
          have := decidableAlong es s'
          decidable_of_iff (ok s e ∧ Along step ok s' es) (by simp [Along, h])

theorem along_append {s : σ} {es fs : List ε} :
    Along step ok s (es ++ fs) ↔
      Along step ok s es ∧ ∀ t, run step s es = some t → Along step ok t fs := by
  induction es generalizing s with
  | nil => simp [Along]
  | cons e es ih =>
    simp only [List.cons_append, Along, ih, run_cons_eq_some]
    constructor
    · intro h
      refine ⟨⟨h.1, fun s' hs' => (h.2 s' hs').1⟩, ?_⟩
      rintro t ⟨s', hs', ht⟩
      exact (h.2 s' hs').2 t ht
    · intro h
      exact ⟨h.1.1, fun s' hs' => ⟨h.1.2 s' hs', fun t ht => h.2 t ⟨s', hs', ht⟩⟩⟩

/-- A step whose outcome need not be written down. -/
theorem Along.next {s : σ} {e : ε} {es : List ε} (hok : ok s e)
    (hrest : Along step ok ((step s e).getD s) es) : Along step ok s (e :: es) := by
  refine ⟨hok, ?_⟩
  intro s' hs'
  rw [hs'] at hrest
  exact hrest

/-- What one admissible step preserves, an admissible run preserves. -/
theorem run_induct {P : σ → Prop}
    (hstep : ∀ s e s', ok s e → P s → step s e = some s' → P s') :
    ∀ {es : List ε} {s t : σ}, P s → Along step ok s es → run step s es = some t → P t
  | [], s, t, hs, _, hrun => by
      cases hrun
      exact hs
  | e :: es, s, t, hs, hok, hrun => by
      obtain ⟨s', hs', hrest⟩ := run_cons_eq_some.mp hrun
      exact run_induct hstep (hstep s e s' hok.1 hs hs') (hok.2 s' hs') hrest

theorem along_true (s : σ) (es : List ε) : Along step (fun _ _ => True) s es := by
  induction es generalizing s with
  | nil => trivial
  | cons e es ih => exact ⟨trivial, fun s' _ => ih s'⟩

/-- A condition on the labels alone. -/
theorem along_of_forall {ok : ε → Prop} (s : σ) {es : List ε} (h : ∀ e ∈ es, ok e) :
    Along step (fun _ e => ok e) s es := by
  induction es generalizing s with
  | nil => trivial
  | cons e es ih =>
    exact ⟨h e List.mem_cons_self, fun s' _ => ih s' fun e' he => h e' (.tail e he)⟩

theorem Along.mono {ok' : σ → ε → Prop} {s : σ} {es : List ε} (h : Along step ok s es)
    (himp : ∀ s e, ok s e → ok' s e) : Along step ok' s es := by
  induction es generalizing s with
  | nil => trivial
  | cons e es ih => exact ⟨himp s e h.1, fun s' hs' => ih (h.2 s' hs')⟩

/-- `P` is an invariant that the conditions may rely on. -/
theorem Along.of_invariant {ok' : σ → ε → Prop} {P : σ → Prop} {s : σ} {es : List ε}
    (h : Along step ok s es) (hinv : ∀ s e s', P s → step s e = some s' → P s')
    (himp : ∀ s e, P s → ok s e → ok' s e) (hs : P s) : Along step ok' s es := by
  induction es generalizing s with
  | nil => trivial
  | cons e es ih =>
    exact ⟨himp s e hs h.1, fun s' hs' => ih (h.2 s' hs') (hinv s e s' hs hs')⟩

/-- Along a run only steps that are taken count. -/
theorem along_congr {ok' : σ → ε → Prop} {s t : σ} {es : List ε}
    (hiff : ∀ s e s', step s e = some s' → (ok s e ↔ ok' s e)) (hrun : run step s es = some t) :
    Along step ok s es ↔ Along step ok' s es := by
  induction es generalizing s with
  | nil => exact Iff.rfl
  | cons e es ih =>
    obtain ⟨s', hs', hrest⟩ := run_cons_eq_some.mp hrun
    simp only [Along, hs', Option.some.injEq, forall_eq']
    rw [hiff s e s' hs', ih hrest]

/-- The unconditional form: an invariant of every step is an invariant of
every run. -/
theorem run_invariant {P : σ → Prop} (hstep : ∀ s e s', P s → step s e = some s' → P s')
    {es : List ε} {s t : σ} (hs : P s) (hrun : run step s es = some t) : P t :=
  run_induct (fun s e s' _ => hstep s e s') hs (along_true s es) hrun

/-- Some admissible run from `s` ends in `Q`. -/
def Leads (step : σ → ε → Option σ) (ok : σ → ε → Prop) (s : σ) (Q : σ → Prop) : Prop :=
  ∃ es t, Along step ok s es ∧ run step s es = some t ∧ Q t

theorem Leads.here {Q : σ → Prop} {s : σ} (h : Q s) : Leads step ok s Q :=
  ⟨[], s, trivial, rfl, h⟩

theorem Leads.next {Q : σ → Prop} {s s' : σ} {e : ε} (hok : ok s e) (hstep : step s e = some s')
    (h : Leads step ok s' Q) : Leads step ok s Q := by
  obtain ⟨es, t, halong, hrun, hQ⟩ := h
  exact ⟨e :: es, t, .cons hok hstep halong, run_cons_eq_some.mpr ⟨s', hstep, hrun⟩, hQ⟩

theorem Leads.trans {Q R : σ → Prop} {s : σ} (h : Leads step ok s Q)
    (hR : ∀ t, Q t → Leads step ok t R) : Leads step ok s R := by
  obtain ⟨es, t, halong, hrun, hQ⟩ := h
  obtain ⟨fs, u, halong', hrun', hu⟩ := hR t hQ
  refine ⟨es ++ fs, u, along_append.mpr ⟨halong, ?_⟩, run_append.mpr ⟨t, hrun, hrun'⟩, hu⟩
  intro t' ht'
  cases hrun.symm.trans ht'
  exact halong'

/-- An invariant of the admissible steps holds where the run ends. -/
theorem Leads.invariant {P Q : σ → Prop} {s : σ}
    (hstep : ∀ s e s', ok s e → P s → step s e = some s' → P s') (hs : P s)
    (h : Leads step ok s Q) : Leads step ok s fun t => P t ∧ Q t := by
  obtain ⟨es, t, halong, hrun, hQ⟩ := h
  exact ⟨es, t, halong, hrun, run_induct hstep hs halong hrun, hQ⟩

/-! ## What has happened -/

/-- `φ` held in some state of the run. -/
def Once (step : σ → ε → Option σ) (init : σ) (es : List ε) (φ : σ → Prop) : Prop :=
  ∃ before after s, es = before ++ after ∧ run step init before = some s ∧ φ s

variable {init : σ} {es : List ε} {φ : σ → Prop}

theorem Once.now {s : σ} (hrun : run step init es = some s) (h : φ s) : Once step init es φ :=
  ⟨es, [], s, (List.append_nil es).symm, hrun, h⟩

/-- `φ` holds in every state of the run. -/
def Throughout (step : σ → ε → Option σ) (init : σ) (es : List ε) (φ : σ → Prop) : Prop :=
  ∀ before after s, es = before ++ after → run step init before = some s → φ s

theorem throughout_cons {e : ε} {s' : σ} (hs' : step init e = some s') :
    Throughout step init (e :: es) φ ↔ φ init ∧ Throughout step s' es φ := by
  constructor
  · intro h
    refine ⟨h [] (e :: es) init rfl rfl, ?_⟩
    rintro before after s rfl hrun
    exact h (e :: before) after s rfl (run_cons_eq_some.mpr ⟨s', hs', hrun⟩)
  · rintro ⟨hinit, h⟩ before after s heq hrun
    cases before with
    | nil =>
      cases hrun
      exact hinit
    | cons e' before =>
      cases heq
      obtain ⟨_, hs'', hrest⟩ := run_cons_eq_some.mp hrun
      rw [hs'] at hs''
      cases hs''
      exact h before after s rfl hrest

/-- Before every step and at the end. -/
theorem throughout_iff : Throughout step init es φ ↔
    Along step (fun s _ => φ s) init es ∧ ∀ t ∈ run step init es, φ t := by
  induction es generalizing init with
  | nil =>
    constructor
    · intro h
      exact ⟨trivial, fun t ht => h [] [] t rfl ht⟩
    · rintro ⟨-, h⟩ before after s heq hrun
      obtain ⟨rfl, -⟩ := List.append_eq_nil_iff.mp heq.symm
      exact h s hrun
  | cons e es ih =>
    cases hs' : step init e with
    | none =>
      have hnot : run step init (e :: es) = none := by simp [run, hs']
      simp only [Along, hs', hnot]
      constructor
      · intro h
        exact ⟨⟨h [] (e :: es) init rfl rfl, by simp⟩, by simp⟩
      · rintro ⟨⟨hinit, -⟩, -⟩ before _ s heq hrun
        cases before with
        | nil =>
          cases hrun
          exact hinit
        | cons =>
          cases heq
          obtain ⟨_, hstep, -⟩ := run_cons_eq_some.mp hrun
          rw [hs'] at hstep
          cases hstep
    | some =>
      rw [throughout_cons hs', ih]
      simp [Along, run, hs', and_assoc]

instance decidableThroughout [DecidablePred φ] : Decidable (Throughout step init es φ) :=
  decidable_of_iff _ throughout_iff.symm

/-- What one admissible step preserves holds throughout an admissible run. -/
theorem throughout_of_along (hstep : ∀ s e s', ok s e → φ s → step s e = some s' → φ s')
    (hinit : φ init) (halong : Along step ok init es) : Throughout step init es φ := by
  rintro before after s rfl hrun
  exact run_induct hstep hinit (along_append.mp halong).1 hrun

theorem Throughout.mono {ψ : σ → Prop} (h : Throughout step init es φ) (himp : ∀ s, φ s → ψ s) :
    Throughout step init es ψ :=
  fun before after s heq hrun => himp s (h before after s heq hrun)

/-- Where a step from `φ` leads to `φ` exactly if `ok` allows it, a run stays
in `φ` exactly if `ok` allows all of it. -/
theorem throughout_iff_along {P : σ → Prop} {t : σ}
    (hinv : ∀ s e s', P s → step s e = some s' → P s')
    (hstep : ∀ s e s', P s → φ s → step s e = some s' → (φ s' ↔ ok s e))
    (hinit : P init) (hφ : φ init) (hrun : run step init es = some t) :
    Throughout step init es φ ↔ Along step ok init es := by
  induction es generalizing init with
  | nil =>
    refine ⟨fun _ => trivial, ?_⟩
    intro _ before after s heq hbefore
    obtain ⟨rfl, -⟩ := List.append_eq_nil_iff.mp heq.symm
    cases hbefore
    exact hφ
  | cons e es ih =>
    obtain ⟨s', hs', hrest⟩ := run_cons_eq_some.mp hrun
    have hhere := hstep init e s' hinit hφ hs'
    rw [throughout_cons hs']
    constructor
    · rintro ⟨-, h⟩
      have hφ' : φ s' := h [] es s' rfl rfl
      exact Along.cons (hhere.mp hφ') hs' ((ih (hinv _ _ _ hinit hs') hφ' hrest).mp h)
    · rintro ⟨hok, h⟩
      have hφ' : φ s' := hhere.mpr hok
      exact ⟨hφ, (ih (hinv _ _ _ hinit hs') hφ' hrest).mpr (h s' hs')⟩

/-- Induction along a run, with the labels up to the state at hand. -/
theorem run_history {P : List ε → σ → Prop} {init s : σ} {es : List ε} (hinit : P [] init)
    (hstep : ∀ es s e s', run step init es = some s → P es s → step s e = some s' →
      P (es ++ [e]) s')
    (hrun : run step init es = some s) : P es s := by
  induction es using List.reverseRecOn generalizing s with
  | nil =>
    cases hrun
    exact hinit
  | append_singleton es e ih =>
    obtain ⟨t, ht, hlast⟩ := run_append.mp hrun
    obtain ⟨u, hu, hnil⟩ := run_cons_eq_some.mp hlast
    cases hnil
    exact hstep es t e s ht (ih ht) hu

/-! ## What is done at most once -/

variable (step) (does : σ → ε → σ → Prop)

/-- No step of the run does it. -/
def Never : σ → List ε → Prop :=
  Along step fun s e => ∀ s', step s e = some s' → ¬ does s e s'

/-- No step does it after another one did. -/
def AtMostOnce : σ → List ε → Prop
  | _, [] => True
  | s, e :: es => ∀ s', step s e = some s' → (does s e s' → Never step does s' es) ∧
      AtMostOnce s' es

variable {step does} {P : σ → Prop} (flag : σ → Prop)

theorem never_of_flag (hinv : ∀ s e s', P s → step s e = some s' → P s')
    (hkeep : ∀ s e s', P s → step s e = some s' → flag s → flag s')
    (hguard : ∀ s e s', P s → step s e = some s' → does s e s' → ¬ flag s) {s : σ}
    {es : List ε} (hs : P s) (hflag : flag s) : Never step does s es := by
  induction es generalizing s with
  | nil => trivial
  | cons e es ih =>
    refine ⟨?_, ?_⟩
    · intro s' hs' hdoes
      exact hguard s e s' hs hs' hdoes hflag
    · intro s' hs'
      exact ih (hinv s e s' hs hs') (hkeep s e s' hs hs' hflag)

/-- `P` is an invariant that the steps may rely on. -/
theorem guarded_once (hinv : ∀ s e s', P s → step s e = some s' → P s')
    (hkeep : ∀ s e s', P s → step s e = some s' → flag s → flag s')
    (hguard : ∀ s e s', P s → step s e = some s' → does s e s' → ¬ flag s ∧ flag s') {s : σ}
    {es : List ε} (hs : P s) : AtMostOnce step does s es := by
  induction es generalizing s with
  | nil => trivial
  | cons e es ih =>
    intro s' hs'
    refine ⟨?_, ih (hinv s e s' hs hs')⟩
    intro hdoes
    have hraised := (hguard s e s' hs hs' hdoes).2
    exact never_of_flag flag hinv hkeep (fun s e s' hs h hd => (hguard s e s' hs h hd).1)
      (hinv s e s' hs hs') hraised

end Scadium.Lib
