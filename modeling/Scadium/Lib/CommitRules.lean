/-
Scadium.Lib.CommitRules — what the sessions of a Read Committed system
commit, one by one.

`Commits G Q m p` folds over a program, like `Protocol.Safe`, and says of
every commit that `G` holds of what it writes. It asks nothing of the
store, so it needs no protocol; where it holds of every program, every
commit of every run is one that its call may make (`Committing.step`).

`Within W posts commits m` is about the statements of a program only: which
rows it may write, and whether it appends or commits at all. What such
statements keep is kept by the program, under `Commits` as under `Safe`.
-/
import Scadium.Lib.ReadCommitted

namespace Scadium.Lib.ReadCommitted

variable {κ : Type} {ρ : κ → Type} {ℓ ν ε α β χ : Type}

/-! ## Statements -/

/-- The program writes rows of `W`; it appends only if `posts`, and commits
only if `commits`. -/
inductive Within (W : κ → Prop) (posts commits : Prop) : Prog ρ ℓ ν ε α → Prop where
  | done (a : α) : Within W posts commits (.done a)
  | throw (e : ε) : Within W posts commits (.throw e)
  | read {next} : (∀ s, Within W posts commits (next s)) → Within W posts commits (.read next)
  | count {f next} : (∀ n, Within W posts commits (next n)) → Within W posts commits (.count f next)
  | write {k f next} : W k → (∀ b, Within W posts commits (next b)) →
      Within W posts commits (.write k f next)
  | append {l next} : posts → Within W posts commits next → Within W posts commits (.append l next)
  | ask {next} : (∀ v, Within W posts commits (next v)) → Within W posts commits (.ask next)
  | commit {next} : commits → Within W posts commits next → Within W posts commits (.commit next)

namespace Within

variable {W W' : κ → Prop} {posts commits : Prop} {m : Prog ρ ℓ ν ε α}

theorem bind {g : α → Prog ρ ℓ ν ε β} (h : Within W posts commits m)
    (hg : ∀ a, Within W posts commits (g a)) : Within W posts commits (m >>= g) := by
  show Within W posts commits (m.bind g)
  induction h with
  | done a => exact hg a
  | throw e => exact .throw e
  | read _ ih => exact .read ih
  | count _ ih => exact .count ih
  | write hk _ ih => exact .write hk ih
  | append hp _ ih => exact .append hp ih
  | ask _ ih => exact .ask ih
  | commit hc _ ih => exact .commit hc ih

theorem pure (a : α) : Within W posts commits (Pure.pure a : Prog ρ ℓ ν ε α) := .done a

theorem query (f : Store ρ ℓ → α) : Within W posts commits (Prog.query f : Prog ρ ℓ ν ε α) :=
  .read fun s => .done (f s)

theorem answer : Within W posts commits (Prog.answer : Prog ρ ℓ ν ε ν) := .ask fun v => .done v

theorem countRows (f : Store ρ ℓ → Nat) :
    Within W posts commits (Prog.countRows f : Prog ρ ℓ ν ε Nat) := .count fun n => .done n

theorem update {k : κ} (hk : W k) (f : ρ k → Option (ρ k)) :
    Within W posts commits (Prog.update k f : Prog ρ ℓ ν ε Bool) := .write hk fun b => .done b

theorem insert {k : κ} (hk : W k) (r : ρ k) :
    Within W posts commits (Prog.insert k r : Prog ρ ℓ ν ε Bool) := .write hk fun b => .done b

theorem log (hp : posts) (l : ℓ) : Within W posts commits (Prog.log l : Prog ρ ℓ ν ε Unit) :=
  .append hp (.done ())

theorem transaction (hc : commits) (h : Within W posts commits m) :
    Within W posts commits (Prog.transaction m) :=
  h.bind fun a => .commit hc (.done a)

end Within

section Rules

variable [DecidableEq κ]

/-! ## Commits -/

/-- Every commit of the program is one that `G` admits, and `Q` holds of what
is written at the end. -/
def Commits (G : Pending ρ ℓ → Prop) (Q : α → Pending ρ ℓ → Prop) :
    Prog ρ ℓ ν ε α → Pending ρ ℓ → Prop
  | .done a, p => Q a p
  | .throw _, _ => True
  | .read next, p => ∀ s, Commits G Q (next (p.view s)) p
  | .count f next, p => ∀ s, Commits G Q (next (f (p.view s))) (p.note (f (p.view s)))
  | .write k f next, p => ∀ s,
      match f ((p.view s).rows k) with
      | none => Commits G Q (next false) p
      | some r => Commits G Q (next true) (p.write s k r)
  | .append l next, p => Commits G Q next (p.append l)
  | .ask next, p => ∀ v, Commits G Q (next v) p
  | .commit next, p => G p ∧ Commits G Q next .empty

variable {G : Pending ρ ℓ → Prop} {p : Pending ρ ℓ}

theorem Commits.bind {Q : β → Pending ρ ℓ → Prop} {m : Prog ρ ℓ ν ε α} {g : α → Prog ρ ℓ ν ε β}
    (h : Commits G (fun a p => Commits G Q (g a) p) m p) : Commits G Q (m >>= g) p := by
  show Commits G Q (m.bind g) p
  induction m generalizing p with
  | done => exact h
  | throw => trivial
  | read next ih | count f next ih => exact fun s => ih _ (h s)
  | write k f next ih =>
    intro s
    have hwrite := h s
    simp only
    split
    · rename_i hf
      rw [hf] at hwrite
      exact ih false hwrite
    · rename_i r hf
      rw [hf] at hwrite
      exact ih true hwrite
  | append l next ih => exact ih h
  | ask next ih => exact fun v => ih v (h v)
  | commit next ih => exact ⟨h.1, ih h.2⟩

theorem Commits.mono {Q Q' : α → Pending ρ ℓ → Prop} {m : Prog ρ ℓ ν ε α} (h : Commits G Q m p)
    (hQ : ∀ a p, Q a p → Q' a p) : Commits G Q' m p := by
  induction m generalizing p with
  | done a => exact hQ a p h
  | throw => trivial
  | read next ih | count f next ih => exact fun s => ih _ (h s)
  | write k f next ih =>
    intro s
    have hwrite := h s
    split
    · rename_i hf
      rw [hf] at hwrite
      exact ih false hwrite
    · rename_i r hf
      rw [hf] at hwrite
      exact ih true hwrite
  | append l next ih => exact ih h
  | ask next ih => exact fun v => ih v (h v)
  | commit next ih => exact ⟨h.1, ih h.2⟩

theorem Commits.query {Q : β → Pending ρ ℓ → Prop} {f : Store ρ ℓ → β}
    (h : ∀ s, Q (f (p.view s)) p) : Commits G Q (Prog.query f : Prog ρ ℓ ν ε β) p := h

theorem Commits.insert {Q : Bool → Pending ρ ℓ → Prop} {k : κ} {r : ρ k} (hmiss : Q false p)
    (hhit : ∀ s, (p.view s).rows k = none → Q true (p.write s k (some r))) :
    Commits G Q (Prog.insert k r : Prog ρ ℓ ν ε Bool) p := by
  intro s
  cases hrow : (p.view s).rows k with
  | none => exact hhit s hrow
  | some => exact hmiss

theorem Commits.update {Q : Bool → Pending ρ ℓ → Prop} {k : κ} {f : ρ k → Option (ρ k)}
    (hmiss : Q false p) (hhit : ∀ s old new, f old = some new → Q true (p.write s k (some new))) :
    Commits G Q (Prog.update k f : Prog ρ ℓ ν ε Bool) p := by
  intro s
  cases hrow : (p.view s).rows k with
  | none => exact hmiss
  | some old =>
    cases hf : f old with
    | none =>
      simp only [Option.bind_some, hf, Option.map_none]
      exact hmiss
    | some new =>
      simp only [Option.bind_some, hf, Option.map_some]
      exact hhit s old new hf

/-! ## What the statements keep -/

/-- `R` is kept by writes of `W` and by what else a program may do. -/
structure Stable (W : κ → Prop) (posts : Prop) (R : Pending ρ ℓ → Prop) : Prop where
  write : ∀ p s k r, W k → R p → R (p.write s k r)
  append : posts → ∀ p l, R p → R (p.append l)
  note : ∀ p n, R p → R (p.note n)

variable {W : κ → Prop} {posts commits : Prop} {R : Pending ρ ℓ → Prop} {m : Prog ρ ℓ ν ε α}

theorem Within.eachCommit (h : Within W posts commits m) (hR : Stable W posts R)
    (hcommit : commits → ∀ p, R p → G p ∧ R .empty) (hp : R p) :
    Commits G (fun _ p => R p) m p := by
  induction h generalizing p with
  | done => exact hp
  | throw => trivial
  | read _ ih => exact fun s => ih _ hp
  | count _ ih => exact fun s => ih _ (hR.note _ _ hp)
  | write hk _ ih =>
    intro s
    split
    · exact ih false hp
    · exact ih true (hR.write _ _ _ _ hk hp)
  | append hpost _ ih => exact ih (hR.append hpost _ _ hp)
  | ask _ ih => exact fun v => ih v hp
  | commit hc _ ih =>
    obtain ⟨hG, hempty⟩ := hcommit hc _ hp
    exact ⟨hG, ih hempty⟩

theorem Within.safe {Γ : Protocol ρ ℓ} {s : Store ρ ℓ} (h : Within W posts commits m)
    (hR : Stable W posts R)
    (hcommit : commits → ∀ p s, Γ.Inv s → R p →
      Γ.Inv (p.view s) ∧ Γ.Step s (p.view s) ∧ R .empty) (hp : R p) :
    Γ.Safe (fun _ p _ => R p) m p s := by
  induction h generalizing p s with
  | done => exact hp
  | throw => trivial
  | read _ ih => exact fun s' _ => ih _ hp
  | count _ ih => exact fun s' _ => ih _ (hR.note _ _ hp)
  | write hk _ ih =>
    intro s' _
    split
    · exact ih false hp
    · exact ih true (hR.write _ _ _ _ hk hp)
  | append hpost _ ih => exact ih (hR.append hpost _ _ hp)
  | ask _ ih => exact fun v => ih v hp
  | commit hc _ ih =>
    intro s' hs' _
    obtain ⟨hinv, hstep, hempty⟩ := hcommit hc _ _ hs'.inv hp
    exact ⟨hinv, hstep, ih hempty⟩

/-! ## Runs -/

/-- What a step commits, and for which call. -/
def System.commitBy (s : System ρ ℓ ν ε α χ) : Event ν χ → Option (χ × Pending ρ ℓ)
  | .run t _ => (s.live.get t).bind fun session =>
      match session.prog with
      | .commit _ => some (session.call, session.pending)
      | _ => none
  | _ => none

/-- The commits of a run, in order. -/
def commitsOf (body : χ → Prog ρ ℓ ν ε α) :
    System ρ ℓ ν ε α χ → List (Event ν χ) → List (χ × Pending ρ ℓ)
  | _, [] => []
  | s, e :: es =>
      match step body s e with
      | none => []
      | some s' => (s.commitBy e).toList ++ commitsOf body s' es

theorem commitsOf_concat {body : χ → Prog ρ ℓ ν ε α} {s t : System ρ ℓ ν ε α χ}
    {es : List (Event ν χ)} {e : Event ν χ} (hrun : run (step body) s es = some t)
    (hstep : (step body t e).isSome = true) :
    commitsOf body s (es ++ [e]) = commitsOf body s es ++ (t.commitBy e).toList := by
  induction es generalizing s with
  | nil =>
    cases hrun
    obtain ⟨s', hs'⟩ := Option.isSome_iff_exists.mp hstep
    simp [commitsOf, hs']
  | cons e' es ih =>
    obtain ⟨_, hs', hrest⟩ := run_cons_eq_some.mp hrun
    simp [commitsOf, hs', ih hrest]

/-- The calls of the live sessions make only the commits they may make. -/
def Committing (G : χ → Pending ρ ℓ → Prop) (s : System ρ ℓ ν ε α χ) : Prop :=
  ∀ t session, s.live.get t = some session →
    Commits (G session.call) (fun _ _ => True) session.prog session.pending

variable {H : χ → Pending ρ ℓ → Prop} {s s' : System ρ ℓ ν ε α χ} {e : Event ν χ}

omit [DecidableEq κ] in
theorem commitBy_eq_some {c : χ} : s.commitBy e = some (c, p) ↔ ∃ t answer session next,
    e = .run t answer ∧ s.live.get t = some session ∧ session.prog = .commit next ∧
      session.call = c ∧ session.pending = p := by
  constructor
  · intro h
    cases e with
    | start => cases h
    | abort => cases h
    | run t answer =>
      obtain ⟨session, hget, hprog⟩ := Option.bind_eq_some_iff.mp h
      split at hprog
      · rename_i next hcommit
        cases hprog
        exact ⟨t, answer, session, next, rfl, hget, hcommit, rfl, rfl⟩
      · cases hprog
  · rintro ⟨t, _, _, _, rfl, hget, hprog, rfl, rfl⟩
    simp [System.commitBy, hget, hprog]

/-- What is committed is what the store becomes. -/
theorem step_commitBy {body : χ → Prog ρ ℓ ν ε α} {c : χ} (hc : s.commitBy e = some (c, p))
    (hstep : step body s e = some s') : s'.store = p.view s.store := by
  obtain ⟨t, _, _, _, rfl, hget, hprog, rfl, rfl⟩ := commitBy_eq_some.mp hc
  rw [step_store hstep]
  simp [System.commits, hget, hprog]

theorem Committing.commit (h : Committing H s) {c : χ} (hc : s.commitBy e = some (c, p)) : H c p := by
  obtain ⟨t, _, session, _, -, hget, hprog, rfl, rfl⟩ := commitBy_eq_some.mp hc
  have hsession := h t session hget
  rw [hprog] at hsession
  exact hsession.1

theorem Committing.step {body : χ → Prog ρ ℓ ν ε α}
    (hbody : ∀ call, Commits (H call) (fun _ _ => True) (body call) .empty) (h : Committing H s)
    (hstep : step body s e = some s') : Committing H s' := by
  cases e with
  | start t call =>
    simp only [ReadCommitted.step] at hstep
    split at hstep
    · cases hstep
      exact s.live.forall_set h (hbody call)
    · cases hstep
  | abort =>
    simp only [ReadCommitted.step] at hstep
    split at hstep
    · cases hstep
      exact s.live.forall_erase h
    · cases hstep
  | run t answer =>
    simp only [ReadCommitted.step] at hstep
    split at hstep
    · rename_i session hget
      have hsession := h t session hget
      simp only [System.stepSession] at hstep
      split at hstep <;> rename_i hprog <;> rw [hprog] at hsession
      · cases hstep
        exact s.live.forall_erase h
      · cases hstep
        exact s.live.forall_erase h
      · cases hstep
        exact s.live.forall_set h (hsession _)
      · cases hstep
        exact s.live.forall_set h (hsession _)
      · have hwrite := hsession s.store
        split at hstep
        · rename_i hf
          rw [hf] at hwrite
          cases hstep
          exact s.live.forall_set h hwrite
        · rename_i r hf
          rw [hf] at hwrite
          split at hstep
          · cases hstep
          · cases hstep
            exact s.live.forall_set h hwrite
      · cases hstep
        exact s.live.forall_set h hsession
      · cases hstep
        exact s.live.forall_set h (hsession answer)
      · cases hstep
        exact s.live.forall_set h hsession.2
    · cases hstep

theorem Committing.initial (store : Store ρ ℓ) :
    Committing H (System.initial store : System ρ ℓ ν ε α χ) := by
  intro t session hget
  cases hget

end Rules

end Scadium.Lib.ReadCommitted
