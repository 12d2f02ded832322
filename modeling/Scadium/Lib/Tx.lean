/-
Scadium.Lib.Tx — bodies of interactive database transactions, and the
retry loop around them.

A transaction body is a program over three things: the database it sees
(`db`), the variables of the surrounding function it assigns (`vars`), and
the point at which the environment aborts it (`failAt`: after so many
statements, with this error). Every statement first gives the environment
its turn, `COMMIT` included. `transact` throws the database away when the
body fails; it does not undo the assignments to `vars`, which is what makes
a retried body observable.

The rules come in three groups: what a body that ended well did
(`*_eq_ok`), what it cannot have touched (`Keeps`, `KeepsVars`), and how it
computes when the environment leaves it alone (`*_clear`).
-/
import Mathlib.Logic.Basic

namespace Scadium.Lib

variable {κ δ ε η α β γ : Type}

/-- The state of an open transaction. -/
structure TxState (κ δ ε : Type) where
  vars : κ
  db : δ
  failAt : Option (Nat × ε)

/-- A transaction body. -/
abbrev Tx (κ δ ε : Type) := EStateM ε (TxState κ δ ε)

namespace Tx

/-! ## Programs -/

/-- Assign captured variables. -/
def assign (f : κ → κ) : Tx κ δ ε Unit := fun s => .ok () { s with vars := f s.vars }

/-- The environment's turn, before each statement. -/
def tick : Tx κ δ ε Unit := fun s =>
  match s.failAt with
  | none => .ok () s
  | some (0, e) => .error e s
  | some (n + 1, e) => .ok () { s with failAt := some (n, e) }

/-- The effect of a statement on the database. -/
def onDb (f : δ → Except ε (α × δ)) : Tx κ δ ε α := fun s =>
  match f s.db with
  | .ok (a, db) => .ok a { s with db := db }
  | .error e => .error e s

/-- A statement. -/
def statement (f : δ → Except ε (α × δ)) : Tx κ δ ε α := do
  tick
  onDb f

/-- A statement that only reads. -/
def query (f : δ → α) : Tx κ δ ε α := statement fun db => .ok (f db, db)

/-- A statement that cannot fail by itself. -/
def update (f : δ → δ) : Tx κ δ ε Unit := statement fun db => .ok ((), f db)

theorem run_tick (s : TxState κ δ ε) : (tick : Tx κ δ ε Unit).run s =
    match s.failAt with
    | none => .ok () s
    | some (0, e) => .error e s
    | some (n + 1, e) => .ok () { s with failAt := some (n, e) } := rfl

theorem run_onDb (f : δ → Except ε (α × δ)) (s : TxState κ δ ε) :
    (onDb f : Tx κ δ ε α).run s =
      match f s.db with
      | .ok (a, db) => .ok a { s with db := db }
      | .error e => .error e s := rfl

@[simp] theorem run_assign (f : κ → κ) (s : TxState κ δ ε) :
    (assign f : Tx κ δ ε Unit).run s = .ok () { s with vars := f s.vars } := rfl

/-- Run a body for each element, in order. -/
def each (body : α → Tx κ δ ε Unit) : List α → Tx κ δ ε Unit
  | [] => pure ()
  | a :: as => do
      body a
      each body as

/-! ## Running a body in a transaction -/

/-- The variables afterwards and, if the transaction committed, its result
and the new database. -/
def transact (m : Tx κ δ ε α) (vars : κ) (db : δ) (failAt : Option (Nat × ε)) :
    κ × Except ε (α × δ) :=
  match (do let a ← m; tick; pure a : Tx κ δ ε α).run ⟨vars, db, failAt⟩ with
  | .ok a s => (s.vars, .ok (a, s.db))
  | .error e s => (s.vars, .error e)

/-- The database after a transaction on `db`. -/
def dbAfter (db : δ) : Except ε (α × δ) → δ
  | .ok (_, db') => db'
  | .error _ => db

/-- What the environment decides about one attempt. -/
structure Attempt (δ ε η : Type) where
  db : δ
  failAt : Option (Nat × ε)
  env : η

/-- One attempt of `fn`. -/
def Attempt.run (fn : η → Tx κ δ ε α) (a : Attempt δ ε η) (vars : κ) : κ × Except ε (α × δ) :=
  transact (fn a.env) vars a.db a.failAt

/-- Run `fn` in a transaction, again after a retryable error, at most
`attempts` times; `next` is the attempt the environment offers each time. -/
def retrying (retryable : ε → Bool) (fn : η → Tx κ δ ε α) (next : Nat → Attempt δ ε η) :
    (attempts : Nat) → (attempt : Nat) → κ → κ × Option (Except ε (α × δ))
  | 0, _, vars => (vars, none)
  | attempts + 1, i, vars =>
      match (next i).run fn vars with
      | (vars, .ok r) => (vars, some (.ok r))
      | (vars, .error e) =>
          if !retryable e || attempts == 0 then (vars, some (.error e))
          else retrying retryable fn next attempts (i + 1) vars

/-! ## Bodies that end well -/

section Ok

variable {m : Tx κ δ ε α} {k : α → Tx κ δ ε β} {s t : TxState κ δ ε} {a : α} {b : β} {e : ε}

theorem bind_eq_ok :
    (m >>= k).run s = .ok b t ↔ ∃ a s', m.run s = .ok a s' ∧ (k a).run s' = .ok b t := by
  rw [EStateM.run_bind]
  cases h : m.run s with
  | ok a s' =>
    refine ⟨fun hk => ⟨a, s', rfl, hk⟩, ?_⟩
    rintro ⟨_, _, heq, hk⟩
    cases heq
    exact hk
  | error => simp

@[simp] theorem pure_eq_ok {a' : α} : (pure a : Tx κ δ ε α).run s = .ok a' t ↔ a = a' ∧ s = t := by
  show EStateM.Result.ok a s = .ok a' t ↔ _
  simp

@[simp] theorem throw_eq_ok : (throw e : Tx κ δ ε α).run s = .ok a t ↔ False := by
  show EStateM.Result.error e s = .ok a t ↔ _
  simp

@[simp] theorem assign_eq_ok {f : κ → κ} {u : Unit} :
    (assign f : Tx κ δ ε Unit).run s = .ok u t ↔ { s with vars := f s.vars } = t := by
  simp

theorem tick_ok {u : Unit} (h : (tick : Tx κ δ ε Unit).run s = .ok u t) :
    ∃ fa, t = { s with failAt := fa } := by
  rw [run_tick] at h
  split at h
  · cases h
    exact ⟨_, rfl⟩
  · cases h
  · cases h
    exact ⟨_, rfl⟩

theorem onDb_eq_ok {f : δ → Except ε (α × δ)} :
    (onDb f : Tx κ δ ε α).run s = .ok a t ↔ ∃ db, f s.db = .ok (a, db) ∧ { s with db := db } = t := by
  rw [run_onDb]
  cases h : f s.db with
  | ok r =>
    obtain ⟨_, db⟩ := r
    simp only [EStateM.Result.ok.injEq, Except.ok.injEq, Prod.mk.injEq]
    refine ⟨fun ⟨ha, ht⟩ => ⟨db, ⟨ha, rfl⟩, ht⟩, ?_⟩
    rintro ⟨_, ⟨ha, rfl⟩, ht⟩
    exact ⟨ha, ht⟩
  | error => simp

/-- A statement that ended well applied its function. -/
theorem statement_ok {f : δ → Except ε (α × δ)} (h : (statement f : Tx κ δ ε α).run s = .ok a t) :
    f s.db = .ok (a, t.db) ∧ t.vars = s.vars := by
  obtain ⟨u, _, htick, hdb⟩ := bind_eq_ok.mp h
  obtain ⟨_, rfl⟩ := tick_ok htick
  obtain ⟨_, hf, rfl⟩ := onDb_eq_ok.mp hdb
  exact ⟨hf, rfl⟩

theorem query_ok {f : δ → α} (h : (query f : Tx κ δ ε α).run s = .ok a t) :
    a = f s.db ∧ t.db = s.db ∧ t.vars = s.vars := by
  obtain ⟨hf, hv⟩ := statement_ok h
  simp only [Except.ok.injEq, Prod.mk.injEq] at hf
  exact ⟨hf.1.symm, hf.2.symm, hv⟩

theorem update_ok {f : δ → δ} {u : Unit} (h : (update f : Tx κ δ ε Unit).run s = .ok u t) :
    t.db = f s.db ∧ t.vars = s.vars := by
  obtain ⟨hf, hv⟩ := statement_ok h
  simp only [Except.ok.injEq, Prod.mk.injEq, true_and] at hf
  exact ⟨hf.symm, hv⟩

/-- A loop that ended well: what each round preserves, indexed by the
elements still to come. -/
theorem each_ok {body : α → Tx κ δ ε Unit} {P : List α → TxState κ δ ε → Prop}
    (hbody : ∀ a as s u t, (body a).run s = .ok u t → P (a :: as) s → P as t) :
    ∀ {as : List α} {s t : TxState κ δ ε} {u : Unit},
      (each body as).run s = .ok u t → P as s → P [] t
  | [], s, t, u, h, hs => by
      obtain ⟨-, rfl⟩ := pure_eq_ok.mp h
      exact hs
  | a :: as, s, t, u, h, hs => by
      obtain ⟨v, s', hb, hrest⟩ := bind_eq_ok.mp h
      exact each_ok hbody hrest (hbody a as s v s' hb hs)

/-- The same, indexed by the elements that are through. -/
theorem each_prefix {body : α → Tx κ δ ε Unit} {P : List α → TxState κ δ ε → Prop} {as : List α}
    (hbody : ∀ past a s u t, a ∈ as → (body a).run s = .ok u t → P past s → P (past ++ [a]) t)
    {s t : TxState κ δ ε} {u : Unit} (h : (each body as).run s = .ok u t) (hs : P [] s) :
    P as t := by
  have hall := each_ok (P := fun rest t => ∃ past, as = past ++ rest ∧ P past t) ?_ h
    ⟨[], rfl, hs⟩
  · obtain ⟨past, heq, hP⟩ := hall
    rw [heq, List.append_nil]
    exact hP
  · rintro a _ s v t hb ⟨past, heq, hP⟩
    have hmem : a ∈ as := by simp [heq]
    exact ⟨past ++ [a], by simp [heq], hbody past a s v t hmem hb hP⟩

end Ok

/-! ## Frames -/

/-- A body that ends well leaves the part `p` of the database alone. -/
def Keeps (p : δ → γ) (m : Tx κ δ ε α) : Prop := ∀ s a t, m.run s = .ok a t → p t.db = p s.db

/-- The state a body ends in, well or not. -/
def final : EStateM.Result ε (TxState κ δ ε) α → TxState κ δ ε
  | .ok _ t => t
  | .error _ t => t

/-- A body, whether it ends well or not, leaves the part `q` of the captured
variables alone. -/
def KeepsVars (q : κ → γ) (m : Tx κ δ ε α) : Prop := ∀ s, q (final (m.run s)).vars = q s.vars

namespace Keeps

variable {p : δ → γ}

theorem pure (a : α) : Keeps p (Pure.pure a : Tx κ δ ε α) := by
  intro s b t h
  obtain ⟨-, rfl⟩ := pure_eq_ok.mp h
  rfl

theorem throw (e : ε) : Keeps p (MonadExcept.throw e : Tx κ δ ε α) :=
  fun _ _ _ h => absurd h (throw_eq_ok.mp)

theorem bind {m : Tx κ δ ε α} {k : α → Tx κ δ ε β} (hm : Keeps p m) (hk : ∀ a, Keeps p (k a)) :
    Keeps p (m >>= k) := by
  intro s b t h
  obtain ⟨a, s', hms, hks⟩ := bind_eq_ok.mp h
  rw [hk a s' b t hks, hm s a s' hms]

theorem assign (f : κ → κ) : Keeps p (Tx.assign f : Tx κ δ ε Unit) := by
  intro s u t h
  cases assign_eq_ok.mp h
  rfl

theorem statement {f : δ → Except ε (α × δ)} (hf : ∀ db a db', f db = .ok (a, db') → p db' = p db) :
    Keeps p (Tx.statement f : Tx κ δ ε α) :=
  fun s a t h => hf s.db a t.db (statement_ok h).1

theorem query (f : δ → α) : Keeps p (Tx.query f : Tx κ δ ε α) := by
  intro s a t h
  rw [(query_ok h).2.1]

theorem update {f : δ → δ} (hf : ∀ db, p (f db) = p db) :
    Keeps p (Tx.update f : Tx κ δ ε Unit) := by
  intro s u t h
  rw [(update_ok h).1, hf]

theorem each {body : α → Tx κ δ ε Unit} (hbody : ∀ a, Keeps p (body a)) (as : List α) :
    Keeps p (Tx.each body as) := by
  intro s u t h
  exact each_ok (P := fun _ t => p t.db = p s.db)
    (fun a _ s' v t' hb hs => (hbody a s' v t' hb).trans hs) h rfl

theorem ite {c : Prop} [Decidable c] {m n : Tx κ δ ε α} (hm : Keeps p m) (hn : Keeps p n) :
    Keeps p (if c then m else n) := by
  split
  · exact hm
  · exact hn

end Keeps

namespace KeepsVars

variable {q : κ → γ}

theorem pure (a : α) : KeepsVars q (Pure.pure a : Tx κ δ ε α) := fun _ => rfl

theorem throw (e : ε) : KeepsVars q (MonadExcept.throw e : Tx κ δ ε α) := fun _ => rfl

theorem bind {m : Tx κ δ ε α} {k : α → Tx κ δ ε β} (hm : KeepsVars q m)
    (hk : ∀ a, KeepsVars q (k a)) : KeepsVars q (m >>= k) := by
  intro s
  rw [EStateM.run_bind]
  have hms := hm s
  cases h : m.run s with
  | ok a s' => rw [h] at hms; exact (hk a s').trans hms
  | error => rw [h] at hms; exact hms

theorem assign {f : κ → κ} (hf : ∀ v, q (f v) = q v) :
    KeepsVars q (Tx.assign f : Tx κ δ ε Unit) := fun s => hf s.vars

theorem tick : KeepsVars q (Tx.tick : Tx κ δ ε Unit) := by
  intro s
  rw [run_tick]
  split <;> rfl

theorem statement (f : δ → Except ε (α × δ)) : KeepsVars q (Tx.statement f : Tx κ δ ε α) := by
  refine bind tick fun _ s => ?_
  rw [run_onDb]
  split <;> rfl

theorem query (f : δ → α) : KeepsVars q (Tx.query f : Tx κ δ ε α) := statement _

theorem update (f : δ → δ) : KeepsVars q (Tx.update f : Tx κ δ ε Unit) := statement _

theorem each {body : α → Tx κ δ ε Unit} (hbody : ∀ a, KeepsVars q (body a)) :
    ∀ as : List α, KeepsVars q (Tx.each body as)
  | [] => pure ()
  | a :: as => bind (hbody a) fun _ => each hbody as

theorem ite {c : Prop} [Decidable c] {m n : Tx κ δ ε α} (hm : KeepsVars q m)
    (hn : KeepsVars q n) : KeepsVars q (if c then m else n) := by
  split
  · exact hm
  · exact hn

/-- In particular when it ends well. -/
theorem of_ok {m : Tx κ δ ε α} (hm : KeepsVars q m) {s t : TxState κ δ ε} {a : α}
    (h : m.run s = .ok a t) : q t.vars = q s.vars := by
  have := hm s
  rwa [h] at this

end KeepsVars

/-! ## Bodies that do not read the variables they assign -/

/-- What a run shows besides its variables. -/
def observe : EStateM.Result ε (TxState κ δ ε) α → Except ε (α × δ × Option (Nat × ε))
  | .ok a t => .ok (a, t.db, t.failAt)
  | .error e _ => .error e

/-- The variables a body starts from do not change what it does. -/
def Blind (m : Tx κ δ ε α) : Prop :=
  ∀ s v, observe (m.run { s with vars := v }) = observe (m.run s)

namespace Blind

theorem pure (a : α) : Blind (Pure.pure a : Tx κ δ ε α) := fun _ _ => rfl

theorem throw (e : ε) : Blind (MonadExcept.throw e : Tx κ δ ε α) := fun _ _ => rfl

theorem bind {m : Tx κ δ ε α} {k : α → Tx κ δ ε β} (hm : Blind m) (hk : ∀ a, Blind (k a)) :
    Blind (m >>= k) := by
  intro s v
  rw [EStateM.run_bind, EStateM.run_bind]
  have hms := hm s v
  cases h : m.run s with
  | ok a t =>
    cases h' : m.run { s with vars := v } with
    | ok a' t' =>
      simp only [h, h', observe, Except.ok.injEq, Prod.mk.injEq] at hms
      obtain ⟨rfl, hdb, hfail⟩ := hms
      have hstate : t' = { t with vars := t'.vars } := by
        rw [← hdb, ← hfail]
      rw [hstate]
      exact hk a' t t'.vars
    | error => simp [h, h', observe] at hms
  | error =>
    cases h' : m.run { s with vars := v } with
    | ok => simp [h, h', observe] at hms
    | error => simpa [h, h', observe] using hms

theorem assign (f : κ → κ) : Blind (Tx.assign f : Tx κ δ ε Unit) := fun _ _ => rfl

theorem tick : Blind (Tx.tick : Tx κ δ ε Unit) := by
  rintro ⟨_, _, failAt⟩ v
  rw [run_tick, run_tick]
  rcases failAt with _ | ⟨_ | n, e⟩ <;> rfl

theorem statement (f : δ → Except ε (α × δ)) : Blind (Tx.statement f : Tx κ δ ε α) := by
  refine bind tick fun _ s v => ?_
  rw [run_onDb, run_onDb]
  cases f s.db <;> rfl

theorem query (f : δ → α) : Blind (Tx.query f : Tx κ δ ε α) := statement _

theorem update (f : δ → δ) : Blind (Tx.update f : Tx κ δ ε Unit) := statement _

theorem each {body : α → Tx κ δ ε Unit} (hbody : ∀ a, Blind (body a)) :
    ∀ as : List α, Blind (Tx.each body as)
  | [] => pure ()
  | a :: as => bind (hbody a) fun _ => each hbody as

theorem ite {c : Prop} [Decidable c] {m n : Tx κ δ ε α} (hm : Blind m) (hn : Blind n) :
    Blind (if c then m else n) := by
  split
  · exact hm
  · exact hn

end Blind

/-! ## Bodies the environment leaves alone -/

section Clear

variable {s : TxState κ δ ε}

theorem tick_clear (h : s.failAt = none) : (tick : Tx κ δ ε Unit).run s = .ok () s := by
  rw [run_tick, h]

theorem statement_clear {f : δ → Except ε (α × δ)} (h : s.failAt = none) :
    (statement f : Tx κ δ ε α).run s = (onDb f).run s := by
  simp [statement, tick_clear h]

theorem update_clear {f : δ → δ} (h : s.failAt = none) :
    (update f : Tx κ δ ε Unit).run s = .ok () { s with db := f s.db } := by
  rw [update, statement_clear h]
  rfl

end Clear

/-! ## Transactions -/

section Transact

variable {m : Tx κ δ ε α} {vars : κ} {db db' : δ} {failAt : Option (Nat × ε)} {a : α}

/-- A committed transaction ran its body to the end. -/
theorem transact_ok {v : κ} (h : transact m vars db failAt = (v, .ok (a, db'))) :
    ∃ s, m.run ⟨vars, db, failAt⟩ = .ok a s ∧ s.db = db' ∧ s.vars = v := by
  unfold transact at h
  split at h
  case h_2 => cases h
  case h_1 b t hrun =>
    cases h
    obtain ⟨_, s, hm, hrest⟩ := bind_eq_ok.mp hrun
    obtain ⟨u, _, htick, hpure⟩ := bind_eq_ok.mp hrest
    obtain ⟨rfl, rfl⟩ := pure_eq_ok.mp hpure
    obtain ⟨_, rfl⟩ := tick_ok htick
    exact ⟨s, hm, rfl, rfl⟩

/-- The same, without the variables. -/
theorem transact_snd_ok (h : (transact m vars db failAt).2 = .ok (a, db')) :
    ∃ s, m.run ⟨vars, db, failAt⟩ = .ok a s ∧ s.db = db' := by
  obtain ⟨s, hrun, hdb, -⟩ := transact_ok (Prod.ext rfl h)
  exact ⟨s, hrun, hdb⟩

/-- What a body keeps, its transaction keeps. -/
theorem Keeps.dbAfter {p : δ → γ} (hm : Keeps p m) (vars : κ) (db : δ)
    (failAt : Option (Nat × ε)) : p (Tx.dbAfter db (transact m vars db failAt).2) = p db := by
  cases h : (transact m vars db failAt).2 with
  | error => rfl
  | ok r =>
    obtain ⟨a, _⟩ := r
    obtain ⟨s, hrun, rfl⟩ := transact_snd_ok h
    exact hm _ _ _ hrun

/-- The variables after a transaction are those the body left, committed or
not. -/
theorem transact_vars (m : Tx κ δ ε α) (vars : κ) (db : δ) (failAt : Option (Nat × ε)) :
    (transact m vars db failAt).1 = (final (m.run ⟨vars, db, failAt⟩)).vars := by
  unfold transact
  rw [EStateM.run_bind]
  cases m.run ⟨vars, db, failAt⟩ with
  | error => rfl
  | ok a t =>
    have hkeep : KeepsVars id (do tick; pure a : Tx κ δ ε α) := .bind .tick fun _ => .pure _
    have hend : (final ((do tick; pure a : Tx κ δ ε α).run t)).vars = t.vars := hkeep t
    show _ = t.vars
    rw [← hend]
    simp only
    cases (do tick; pure a : Tx κ δ ε α).run t <;> rfl

/-- A blind body commits or aborts whatever the variables are. -/
theorem transact_blind (hm : Blind m) (vars vars' : κ) (db : δ) (failAt : Option (Nat × ε)) :
    (transact m vars db failAt).2 = (transact m vars' db failAt).2 := by
  have hwhole : Blind (do let a ← m; tick; pure a : Tx κ δ ε α) :=
    .bind hm fun _ => .bind .tick fun _ => .pure _
  have hobs : observe (_ : EStateM.Result ε (TxState κ δ ε) α) = observe _ :=
    hwhole ⟨vars', db, failAt⟩ vars
  unfold transact
  revert hobs
  cases (do let a ← m; tick; pure a : Tx κ δ ε α).run ⟨vars, db, failAt⟩ <;>
    cases (do let a ← m; tick; pure a : Tx κ δ ε α).run ⟨vars', db, failAt⟩ <;>
    simp +contextual [observe]

/-- A body that runs to the end, undisturbed, commits. -/
theorem transact_clear {t : TxState κ δ ε} (hm : m.run ⟨vars, db, none⟩ = .ok a t)
    (ht : t.failAt = none) : transact m vars db none = (t.vars, .ok (a, t.db)) := by
  have hrun : (do let a ← m; tick; pure a : Tx κ δ ε α).run ⟨vars, db, none⟩ = .ok a t :=
    bind_eq_ok.mpr ⟨a, t, hm, bind_eq_ok.mpr ⟨(), t, tick_clear ht, rfl⟩⟩
  simp only [transact, hrun]

end Transact

/-! ## Success -/

/-- From a database with `P`, undisturbed, the body ends well with `Q`. -/
def Succeeds (P : δ → Prop) (m : Tx κ δ ε α) (Q : α → δ → Prop) : Prop :=
  ∀ s, s.failAt = none → P s.db → ∃ a t, m.run s = .ok a t ∧ t.failAt = none ∧ Q a t.db

namespace Succeeds

variable {P P' : δ → Prop} {Q : α → δ → Prop} {R : β → δ → Prop}

theorem pure {a : α} (h : ∀ db, P db → Q a db) : Succeeds P (Pure.pure a : Tx κ δ ε α) Q :=
  fun s hs hP => ⟨a, s, rfl, hs, h s.db hP⟩

theorem imp {m : Tx κ δ ε α} {Q' : α → δ → Prop} (h : Succeeds P m Q)
    (hP : ∀ db, P' db → P db) (hQ : ∀ a db, Q a db → Q' a db) : Succeeds P' m Q' := by
  intro s hs hP'
  obtain ⟨a, t, hm, ht, hQt⟩ := h s hs (hP _ hP')
  exact ⟨a, t, hm, ht, hQ _ _ hQt⟩

theorem bind {m : Tx κ δ ε α} {k : α → Tx κ δ ε β} (hm : Succeeds P m Q)
    (hk : ∀ a, Succeeds (Q a) (k a) R) : Succeeds P (m >>= k) R := by
  intro s hs hP
  obtain ⟨a, s', hms, hs', hQ⟩ := hm s hs hP
  obtain ⟨b, t, hkt, ht, hR⟩ := hk a s' hs' hQ
  exact ⟨b, t, bind_eq_ok.mpr ⟨a, s', hms, hkt⟩, ht, hR⟩

theorem assign (f : κ → κ) : Succeeds P (Tx.assign f : Tx κ δ ε Unit) fun _ => P :=
  fun s hs hP => ⟨(), { s with vars := f s.vars }, rfl, hs, hP⟩

theorem statement {f : δ → Except ε (α × δ)}
    (h : ∀ db, P db → ∃ a db', f db = .ok (a, db') ∧ Q a db') :
    Succeeds P (Tx.statement f : Tx κ δ ε α) Q := by
  intro s hs hP
  obtain ⟨a, db', hf, hQ⟩ := h s.db hP
  refine ⟨a, { s with db := db' }, ?_, hs, hQ⟩
  rw [statement_clear hs, run_onDb, hf]

theorem query (f : δ → α) (h : ∀ db, P db → Q (f db) db) :
    Succeeds P (Tx.query f : Tx κ δ ε α) Q :=
  statement fun db hP => ⟨f db, db, rfl, h db hP⟩

theorem update {f : δ → δ} {Q : Unit → δ → Prop} (h : ∀ db, P db → Q () (f db)) :
    Succeeds P (Tx.update f : Tx κ δ ε Unit) Q :=
  statement fun db hP => ⟨(), f db, rfl, h db hP⟩

theorem each {body : α → Tx κ δ ε Unit} {as : List α}
    (h : ∀ a ∈ as, Succeeds P (body a) fun _ => P) : Succeeds P (Tx.each body as) fun _ => P := by
  induction as with
  | nil => exact pure fun _ hP => hP
  | cons a as ih =>
    exact bind (h a List.mem_cons_self) fun _ =>
      ih fun b hb => h b (List.mem_cons_of_mem _ hb)

theorem ite {c : Prop} [Decidable c] {m n : Tx κ δ ε α} (hm : c → Succeeds P m Q)
    (hn : ¬ c → Succeeds P n Q) : Succeeds P (if c then m else n) Q := by
  split
  case isTrue h => exact hm h
  case isFalse h => exact hn h

/-- A body that succeeds is committed. -/
theorem transact {m : Tx κ δ ε α} (h : Succeeds P m Q) {db : δ} (hP : P db) (vars : κ) :
    ∃ v a db', Tx.transact m vars db none = (v, .ok (a, db')) ∧ Q a db' := by
  obtain ⟨a, t, hm, ht, hQ⟩ := h ⟨vars, db, none⟩ rfl hP
  exact ⟨t.vars, a, t.db, transact_clear hm ht, hQ⟩

end Succeeds

/-! ## Retrying -/

/-- The variables after some attempts, one after the other. -/
def varsAfter (fn : η → Tx κ δ ε α) : List (Attempt δ ε η) → κ → κ
  | [], vars => vars
  | a :: as, vars => varsAfter fn as (a.run fn vars).1

/-- Every attempt fails with a retryable error, each from the variables the
ones before it left. -/
def AllAborted (retryable : ε → Bool) (fn : η → Tx κ δ ε α) :
    List (Attempt δ ε η) → κ → Prop
  | [], _ => True
  | a :: as, vars =>
      (∃ e, (a.run fn vars).2 = .error e ∧ retryable e = true) ∧
        AllAborted retryable fn as (a.run fn vars).1

/-- A retried transaction that committed did so in one attempt, after
attempts that all aborted. -/
theorem retrying_ok {retryable : ε → Bool} {fn : η → Tx κ δ ε α}
    {next : Nat → Attempt δ ε η} {v : κ} {r : α × δ} :
    ∀ {attempts i : Nat} {vars : κ}, retrying retryable fn next attempts i vars = (v, some (.ok r)) →
      ∃ n, n < attempts ∧
        AllAborted retryable fn ((List.range' i n).map next) vars ∧
        (next (i + n)).run fn (varsAfter fn ((List.range' i n).map next) vars) = (v, .ok r)
  | 0, i, vars, h => by
      simp [retrying] at h
  | attempts + 1, i, vars, h => by
      rw [retrying] at h
      split at h
      case h_1 v' r' hrun =>
        cases h
        exact ⟨0, by omega, trivial, hrun⟩
      case h_2 v' e hrun =>
        split at h
        · cases h
        · rename_i hgo
          obtain ⟨n, _, hab, hlast⟩ := retrying_ok h
          have hret : retryable e = true := by
            simp only [Bool.or_eq_true, Bool.not_eq_true', not_or, Bool.not_eq_false] at hgo
            exact hgo.1
          refine ⟨n + 1, by omega, ?_, ?_⟩
          · rw [List.range'_succ, List.map_cons]
            refine ⟨⟨e, by rw [hrun], hret⟩, ?_⟩
            rw [hrun]
            exact hab
          · rw [List.range'_succ, List.map_cons, varsAfter, hrun, ← Nat.add_assoc,
              Nat.add_right_comm]
            exact hlast

end Tx

end Scadium.Lib
