/-
Scadium.Lib.ReadCommitted — sessions that run transactions side by side
under Read Committed.

A program is a sequence of statements. Each statement sees what is
committed at that moment and what its own transaction has written. A write
of a row locks it to the end of the transaction: another session that would
write the row waits, and evaluates its statement when the lock is gone. A
session can end at any moment; what it has not committed is lost then.

The rows of a store are typed by their keys. `log` is what is only ever
appended, in the order of the commits.

The rule is `Good.run`. A `Protocol` says what holds of every committed
store (`Inv`) and what a commit may do (`Step`). `Safe` folds it over a
program, one case for each statement: what was read before may have changed
since, what is locked has not. If every program is safe, every run keeps
the protocol.
-/
import Mathlib.Logic.Function.Basic
import Mathlib.Logic.Relation
import Scadium.Lib.Runs
import Scadium.Lib.Table

namespace Scadium.Lib.ReadCommitted

variable {κ : Type} {ρ : κ → Type} {ℓ ν ε α β χ : Type}

/-! ## Stores -/

/-- What is committed. `keys` are the keys of the rows ever inserted. -/
structure Store {κ : Type} (ρ : κ → Type) (ℓ : Type) where
  rows : ∀ k, Option (ρ k)
  keys : List κ
  log : List ℓ

/-- A row that a transaction has written, and the committed one it locks. -/
structure Version (α : Type) where
  before : Option α
  after : Option α

/-- What a transaction has written so far, and what it has counted. -/
structure Pending {κ : Type} (ρ : κ → Type) (ℓ : Type) where
  rows : ∀ k, Option (Version (ρ k))
  keys : List κ
  log : List ℓ
  counts : List Nat

/-- `findMany`, by the keys. -/
def Store.select (s : Store ρ ℓ) (P : ∀ k, ρ k → Bool) : List κ :=
  s.keys.filter fun k => (s.rows k).any (P k)

namespace Pending

def empty : Pending ρ ℓ := ⟨fun _ => none, [], [], []⟩

/-- What the transaction sees, and what its commit makes of the store. -/
def view (p : Pending ρ ℓ) (s : Store ρ ℓ) : Store ρ ℓ where
  rows k := match p.rows k with
    | some v => v.after
    | none => s.rows k
  keys := s.keys ++ p.keys
  log := s.log ++ p.log

def locks (p : Pending ρ ℓ) (k : κ) : Bool := (p.rows k).isSome

/-- The committed row under the transaction's own. -/
def base (p : Pending ρ ℓ) (s : Store ρ ℓ) (k : κ) : Option (ρ k) :=
  match p.rows k with
  | some v => v.before
  | none => s.rows k

def write [DecidableEq κ] (p : Pending ρ ℓ) (s : Store ρ ℓ) (k : κ) (r : Option (ρ k)) :
    Pending ρ ℓ where
  rows := Function.update p.rows k (some ⟨p.base s k, r⟩)
  keys := if r.isSome ∧ ((p.view s).rows k).isNone ∧ k ∉ s.keys ++ p.keys then p.keys ++ [k]
    else p.keys
  log := p.log
  counts := p.counts

def append (p : Pending ρ ℓ) (l : ℓ) : Pending ρ ℓ := { p with log := p.log ++ [l] }

def note (p : Pending ρ ℓ) (n : Nat) : Pending ρ ℓ := { p with counts := p.counts ++ [n] }

/-- No one else has written what the transaction has locked. -/
def Fits (p : Pending ρ ℓ) (s : Store ρ ℓ) : Prop :=
  ∀ k v, p.rows k = some v → s.rows k = v.before

end Pending

/-! ## Programs -/

/-- A program, as what is left of it. `write k f` applies to the row of `k`
as it is seen; where `f` gives nothing, no row has matched. `ask` is an
answer of the environment. -/
inductive Prog {κ : Type} (ρ : κ → Type) (ℓ ν ε α : Type) where
  | done (a : α)
  | throw (e : ε)
  | read (next : Store ρ ℓ → Prog ρ ℓ ν ε α)
  | count (f : Store ρ ℓ → Nat) (next : Nat → Prog ρ ℓ ν ε α)
  | write (k : κ) (f : Option (ρ k) → Option (Option (ρ k))) (next : Bool → Prog ρ ℓ ν ε α)
  | append (l : ℓ) (next : Prog ρ ℓ ν ε α)
  | ask (next : ν → Prog ρ ℓ ν ε α)
  | commit (next : Prog ρ ℓ ν ε α)

namespace Prog

def bind : Prog ρ ℓ ν ε α → (α → Prog ρ ℓ ν ε β) → Prog ρ ℓ ν ε β
  | .done a, g => g a
  | .throw e, _ => .throw e
  | .read next, g => .read fun s => (next s).bind g
  | .count f next, g => .count f fun n => (next n).bind g
  | .write k f next, g => .write k f fun b => (next b).bind g
  | .append l next, g => .append l (next.bind g)
  | .ask next, g => .ask fun v => (next v).bind g
  | .commit next, g => .commit (next.bind g)

instance : Monad (Prog ρ ℓ ν ε) where
  pure := .done
  bind := Prog.bind

/-- A query. -/
def query (f : Store ρ ℓ → β) : Prog ρ ℓ ν ε β := .read fun s => .done (f s)

/-- A query that counts. -/
def countRows (f : Store ρ ℓ → Nat) : Prog ρ ℓ ν ε Nat := .count f .done

/-- `updateMany` on one key: whether the row matched. -/
def update (k : κ) (f : ρ k → Option (ρ k)) : Prog ρ ℓ ν ε Bool :=
  .write k (fun row => row.bind fun r => (f r).map some) .done

/-- `createMany` with `skipDuplicates`, of one row: whether it was new. -/
def insert (k : κ) (r : ρ k) : Prog ρ ℓ ν ε Bool :=
  .write k (fun row => if row.isSome then none else some (some r)) .done

def log (l : ℓ) : Prog ρ ℓ ν ε Unit := .append l (.done ())

def answer : Prog ρ ℓ ν ε ν := .ask .done

/-- `try … catch`: an error becomes a value. -/
def attempt : Prog ρ ℓ ν ε α → Prog ρ ℓ ν ε (Except ε α)
  | .done a => .done (.ok a)
  | .throw e => .done (.error e)
  | .read next => .read fun s => (next s).attempt
  | .count f next => .count f fun n => (next n).attempt
  | .write k f next => .write k f fun b => (next b).attempt
  | .append l next => .append l next.attempt
  | .ask next => .ask fun v => (next v).attempt
  | .commit next => .commit next.attempt

/-- What is not caught ends the program. -/
def orThrow (g : α → Prog ρ ℓ ν ε β) : Except ε α → Prog ρ ℓ ν ε β
  | .ok a => g a
  | .error e => .throw e

theorem attempt_orThrow (m : Prog ρ ℓ ν ε α) (g : α → Prog ρ ℓ ν ε β) :
    m.attempt.bind (orThrow g) = m.bind g := by
  induction m with
  | done => rfl
  | throw => rfl
  | read next ih | count f next ih | write k f next ih | append l next ih | ask next ih
  | commit next ih => simp [attempt, bind, ih]

theorem bind_done (m : Prog ρ ℓ ν ε α) : m.bind .done = m := by
  induction m with
  | done => rfl
  | throw => rfl
  | read next ih | count f next ih | write k f next ih | append l next ih | ask next ih
  | commit next ih => simp [bind, ih]

theorem bind_assoc {γ : Type} (m : Prog ρ ℓ ν ε α) (g : α → Prog ρ ℓ ν ε β)
    (h : β → Prog ρ ℓ ν ε γ) : (m.bind g).bind h = m.bind fun a => (g a).bind h := by
  induction m with
  | done => rfl
  | throw => rfl
  | read next ih | count f next ih | write k f next ih | append l next ih | ask next ih
  | commit next ih => simp [bind, ih]

/-- A transaction. -/
def transaction (body : Prog ρ ℓ ν ε α) : Prog ρ ℓ ν ε α := do
  let a ← body
  .commit (.done a)

end Prog

/-! ## Sessions -/

section Sessions

variable [DecidableEq κ]

abbrev SessionId := Nat

structure Session {κ : Type} (ρ : κ → Type) (ℓ ν ε α χ : Type) where
  call : χ
  pending : Pending ρ ℓ
  prog : Prog ρ ℓ ν ε α

structure System {κ : Type} (ρ : κ → Type) (ℓ ν ε α χ : Type) where
  store : Store ρ ℓ
  live : Table SessionId (Session ρ ℓ ν ε α χ)
  replies : List (χ × Except ε α)

inductive Event (ν χ : Type) where
  | start (t : SessionId) (call : χ)
  /-- The next statement of a session, with the environment's answer. -/
  | run (t : SessionId) (answer : ν)
  /-- The session ends where it is: killed, timed out, or a statement failed. -/
  | abort (t : SessionId)

namespace System

variable (s : System ρ ℓ ν ε α χ)

/-- Another session than `t` has the row locked. -/
def locked (t : SessionId) (k : κ) : Bool :=
  s.live.entries.any fun e => e.1 != t && e.2.pending.locks k

def resume (t : SessionId) (session : Session ρ ℓ ν ε α χ) : System ρ ℓ ν ε α χ :=
  { s with live := s.live.set t session }

def finish (t : SessionId) (call : χ) (reply : Except ε α) : System ρ ℓ ν ε α χ :=
  { s with live := s.live.erase t, replies := s.replies ++ [(call, reply)] }

/-- The next statement of a session. -/
def stepSession (t : SessionId) (session : Session ρ ℓ ν ε α χ) (answer : ν) :
    Option (System ρ ℓ ν ε α χ) :=
  let p := session.pending
  match session.prog with
  | .done a => some (s.finish t session.call (.ok a))
  | .throw e => some (s.finish t session.call (.error e))
  | .read next => some (s.resume t { session with prog := next (p.view s.store) })
  | .count f next =>
      let n := f (p.view s.store)
      some (s.resume t { session with pending := p.note n, prog := next n })
  | .write k f next =>
      match f ((p.view s.store).rows k) with
      | none => some (s.resume t { session with prog := next false })
      | some r =>
          if s.locked t k then none
          else some (s.resume t
            { session with pending := p.write s.store k r, prog := next true })
  | .append l next => some (s.resume t { session with pending := p.append l, prog := next })
  | .ask next => some (s.resume t { session with prog := next answer })
  | .commit next =>
      some ({ s with store := p.view s.store }.resume t
        { session with pending := .empty, prog := next })

end System

def step (body : χ → Prog ρ ℓ ν ε α) (s : System ρ ℓ ν ε α χ) :
    Event ν χ → Option (System ρ ℓ ν ε α χ)
  | .start t call =>
      match s.live.get t with
      | none => some (s.resume t ⟨call, .empty, body call⟩)
      | some _ => none
  | .run t answer =>
      match s.live.get t with
      | some session => s.stepSession t session answer
      | none => none
  | .abort t =>
      match s.live.get t with
      | some _ => some { s with live := s.live.erase t }
      | none => none

/-- What a step commits. -/
def System.commits (s : System ρ ℓ ν ε α χ) : Event ν χ → Option (Pending ρ ℓ)
  | .run t _ => (s.live.get t).bind fun session =>
      match session.prog with
      | .commit _ => some session.pending
      | _ => none
  | _ => none

def System.initial (store : Store ρ ℓ) : System ρ ℓ ν ε α χ := ⟨store, .empty, []⟩

end Sessions

/-! ## Pending writes -/

namespace Pending

variable {p : Pending ρ ℓ} {s s' : Store ρ ℓ} {k j : κ} {r : Option (ρ k)} {l : ℓ}

@[simp] theorem empty_rows (k : κ) : (empty : Pending ρ ℓ).rows k = none := rfl
@[simp] theorem empty_log : (empty : Pending ρ ℓ).log = [] := rfl
@[simp] theorem append_rows : (p.append l).rows = p.rows := rfl
@[simp] theorem note_rows {n : Nat} : (p.note n).rows = p.rows := rfl
@[simp] theorem append_log : (p.append l).log = p.log ++ [l] := rfl
@[simp] theorem view_log : (p.view s).log = s.log ++ p.log := rfl
@[simp] theorem view_keys : (p.view s).keys = s.keys ++ p.keys := rfl

theorem view_rows_none (h : p.rows k = none) : (p.view s).rows k = s.rows k := by
  simp [view, h]

theorem view_rows_some {v : Version (ρ k)} (h : p.rows k = some v) :
    (p.view s).rows k = v.after := by
  simp [view, h]

@[simp] theorem view_empty : (empty : Pending ρ ℓ).view s = s := by
  simp [view, empty]

theorem base_of_fits (h : p.Fits s) (k : κ) : p.base s k = s.rows k := by
  unfold base
  split
  · rename_i v hv
    exact (h k v hv).symm
  · rfl

theorem fits_empty : (empty : Pending ρ ℓ).Fits s := by
  intro k v h
  cases h

/-- A store that differs only where nothing is locked. -/
theorem Fits.of_rows (h : p.Fits s) (hrows : ∀ k, p.locks k = true → s'.rows k = s.rows k) :
    p.Fits s' := by
  intro k v hv
  rw [hrows k (by simp [locks, hv])]
  exact h k v hv

section Writes

variable [DecidableEq κ]

@[simp] theorem write_log : (p.write s k r).log = p.log := rfl

@[simp] theorem write_rows_self : (p.write s k r).rows k = some ⟨p.base s k, r⟩ := by
  simp [write]

theorem write_rows_ne (h : j ≠ k) : (p.write s k r).rows j = p.rows j := by
  simp [write, h]

theorem Fits.write (h : p.Fits s) : (p.write s k r).Fits s := by
  intro j v hv
  by_cases hjk : j = k
  · subst hjk
    rw [write_rows_self] at hv
    cases hv
    exact (base_of_fits h j).symm
  · rw [write_rows_ne hjk] at hv
    exact h j v hv

theorem locks_write : (p.write s k r).locks j = (p.locks j || decide (j = k)) := by
  by_cases hjk : j = k
  · subst hjk
    simp [locks]
  · simp [locks, write_rows_ne hjk, hjk]

end Writes

end Pending

/-! ## Safety of a program -/

/-- What a system keeps: of every store, and from one commit to the next.
`Ok` is what a commit may rely on beyond its locks. -/
structure Protocol {κ : Type} (ρ : κ → Type) (ℓ : Type) where
  Inv : Store ρ ℓ → Prop
  Step : Store ρ ℓ → Store ρ ℓ → Prop
  Ok : Pending ρ ℓ → Store ρ ℓ → Prop

namespace Protocol

variable (Γ : Protocol ρ ℓ)

def Later : Store ρ ℓ → Store ρ ℓ → Prop := Relation.ReflTransGen Γ.Step

variable {Γ} in
/-- What every commit keeps. -/
theorem Later.keeps {P : Store ρ ℓ → Prop} {s s' : Store ρ ℓ} (h : Γ.Later s s')
    (hstep : ∀ s s', Γ.Step s s' → P s → P s') (hs : P s) : P s' := by
  induction h with
  | refl => exact hs
  | tail _ hlast ih => exact hstep _ _ hlast ih

/-- What is committed when a statement of a transaction comes, if `s` was
when the one before it came. -/
structure Next (p : Pending ρ ℓ) (s s' : Store ρ ℓ) : Prop where
  later : Γ.Later s s'
  inv : Γ.Inv s'
  fits : p.Fits s'

variable [DecidableEq κ]

/-- The program can be run to its end from here, whatever others commit in
between, and `Q` holds there. -/
def Safe (Q : β → Pending ρ ℓ → Store ρ ℓ → Prop) :
    Prog ρ ℓ ν ε β → Pending ρ ℓ → Store ρ ℓ → Prop
  | .done a, p, s => Q a p s
  | .throw _, _, _ => True
  | .read next, p, s => ∀ s', Γ.Next p s s' → Safe Q (next (p.view s')) p s'
  | .count f next, p, s => ∀ s', Γ.Next p s s' →
      Safe Q (next (f (p.view s'))) (p.note (f (p.view s'))) s'
  | .write k f next, p, s => ∀ s', Γ.Next p s s' →
      match f ((p.view s').rows k) with
      | none => Safe Q (next false) p s'
      | some r => Safe Q (next true) (p.write s' k r) s'
  | .append l next, p, s => Safe Q next (p.append l) s
  | .ask next, p, s => ∀ v, Safe Q (next v) p s
  | .commit next, p, s => ∀ s', Γ.Next p s s' → Γ.Ok p s' →
      Γ.Inv (p.view s') ∧ Γ.Step s' (p.view s') ∧ Safe Q next .empty (p.view s')

variable {Γ} {Q : β → Pending ρ ℓ → Store ρ ℓ → Prop} {p : Pending ρ ℓ} {s : Store ρ ℓ}

theorem Safe.bind {m : Prog ρ ℓ ν ε α} {g : α → Prog ρ ℓ ν ε β}
    (h : Γ.Safe (fun a p s => Γ.Safe Q (g a) p s) m p s) : Γ.Safe Q (m >>= g) p s := by
  show Γ.Safe Q (m.bind g) p s
  induction m generalizing p s with
  | done => exact h
  | throw => trivial
  | read next ih | count f next ih => exact fun s' hs' => ih _ (h s' hs')
  | write k f next ih =>
    intro s' hs'
    have hwrite := h s' hs'
    simp only
    split
    · rename_i hf
      rw [hf] at hwrite
      exact ih false hwrite
    · rename_i r hf
      rw [hf] at hwrite
      exact ih true hwrite
  | append l next ih => exact ih h
  | ask next ih => exact fun v => ih v (h v)
  | commit next ih =>
    intro s' hs' hok
    obtain ⟨hinv, hcommit, hnext⟩ := h s' hs' hok
    exact ⟨hinv, hcommit, ih hnext⟩

theorem Safe.mono {Q' : β → Pending ρ ℓ → Store ρ ℓ → Prop} {m : Prog ρ ℓ ν ε β}
    (h : Γ.Safe Q m p s) (hQ : ∀ a p s, Q a p s → Q' a p s) : Γ.Safe Q' m p s := by
  induction m generalizing p s with
  | done a => exact hQ a p s h
  | throw => trivial
  | read next ih | count f next ih => exact fun s' hs' => ih _ (h s' hs')
  | write k f next ih =>
    intro s' hs'
    have hwrite := h s' hs'
    split
    · rename_i hf
      rw [hf] at hwrite
      exact ih false hwrite
    · rename_i r hf
      rw [hf] at hwrite
      exact ih true hwrite
  | append l next ih => exact ih h
  | ask next ih => exact fun v => ih v (h v)
  | commit next ih =>
    intro s' hs' hok
    obtain ⟨hinv, hcommit, hnext⟩ := h s' hs' hok
    exact ⟨hinv, hcommit, ih hnext⟩

/-- `Q` is told of an error too. -/
theorem Safe.attempt_bind {Q : Except ε β → Pending ρ ℓ → Store ρ ℓ → Prop} {m : Prog ρ ℓ ν ε α}
    {g : α → Prog ρ ℓ ν ε β}
    (h : Γ.Safe (fun r p s => match r with
      | .ok a => Γ.Safe Q (g a).attempt p s
      | .error e => Q (.error e) p s) m.attempt p s) : Γ.Safe Q (m >>= g).attempt p s := by
  show Γ.Safe Q (m.bind g).attempt p s
  induction m generalizing p s with
  | done => exact h
  | throw => exact h
  | read next ih | count f next ih => exact fun s' hs' => ih _ (h s' hs')
  | write k f next ih =>
    intro s' hs'
    have hwrite := h s' hs'
    simp only
    split
    · rename_i hf
      rw [hf] at hwrite
      exact ih false hwrite
    · rename_i r hf
      rw [hf] at hwrite
      exact ih true hwrite
  | append l next ih => exact ih h
  | ask next ih => exact fun v => ih v (h v)
  | commit next ih =>
    intro s' hs' hok
    obtain ⟨hinv, hcommit, hnext⟩ := h s' hs' hok
    exact ⟨hinv, hcommit, ih hnext⟩

/-- Where errors are not caught, nothing is asked of them. -/
theorem Safe.of_attempt {m : Prog ρ ℓ ν ε β}
    (h : Γ.Safe (fun r p s => ∀ a, r = .ok a → Q a p s) m.attempt p s) : Γ.Safe Q m p s := by
  induction m generalizing p s with
  | done a => exact h a rfl
  | throw => trivial
  | read next ih | count f next ih => exact fun s' hs' => ih _ (h s' hs')
  | write k f next ih =>
    intro s' hs'
    have hwrite := h s' hs'
    split
    · rename_i hf
      rw [hf] at hwrite
      exact ih false hwrite
    · rename_i r hf
      rw [hf] at hwrite
      exact ih true hwrite
  | append l next ih => exact ih h
  | ask next ih => exact fun v => ih v (h v)
  | commit next ih =>
    intro s' hs' hok
    obtain ⟨hinv, hcommit, hnext⟩ := h s' hs' hok
    exact ⟨hinv, hcommit, ih hnext⟩

theorem Safe.pure {a : β} (h : Q a p s) :
    Γ.Safe Q (Pure.pure a : Prog ρ ℓ ν ε β) p s := h

theorem Safe.throw (e : ε) : Γ.Safe Q (.throw e : Prog ρ ℓ ν ε β) p s := trivial

theorem Safe.query {f : Store ρ ℓ → β} (h : ∀ s', Γ.Next p s s' → Q (f (p.view s')) p s') :
    Γ.Safe Q (Prog.query f : Prog ρ ℓ ν ε β) p s := h

theorem Safe.countRows {f : Store ρ ℓ → Nat} {Q : Nat → Pending ρ ℓ → Store ρ ℓ → Prop}
    (h : ∀ s', Γ.Next p s s' → Q (f (p.view s')) (p.note (f (p.view s'))) s') :
    Γ.Safe Q (Prog.countRows f : Prog ρ ℓ ν ε Nat) p s := h

theorem Safe.answer {Q : ν → Pending ρ ℓ → Store ρ ℓ → Prop} (h : ∀ v, Q v p s) :
    Γ.Safe Q (Prog.answer : Prog ρ ℓ ν ε ν) p s := h

variable {Q : Bool → Pending ρ ℓ → Store ρ ℓ → Prop} {k : κ}

theorem Safe.update {f : ρ k → Option (ρ k)}
    (hmiss : ∀ s', Γ.Next p s s' → ((p.view s').rows k).bind f = none → Q false p s')
    (hhit : ∀ s' old new, Γ.Next p s s' → (p.view s').rows k = some old → f old = some new →
      Q true (p.write s' k (some new)) s') :
    Γ.Safe Q (Prog.update k f : Prog ρ ℓ ν ε Bool) p s := by
  intro s' hs'
  have hmiss' := hmiss s' hs'
  have hhit' := hhit s'
  cases hrow : (p.view s').rows k with
  | none => exact hmiss' (by simp [hrow])
  | some old =>
    cases hf : f old with
    | none =>
      simp only [Option.bind_some, hf, Option.map_none]
      exact hmiss' (by simp [hrow, hf])
    | some new =>
      simp only [Option.bind_some, hf, Option.map_some]
      exact hhit' old new hs' hrow hf

theorem Safe.insert {r : ρ k}
    (hmiss : ∀ s' old, Γ.Next p s s' → (p.view s').rows k = some old → Q false p s')
    (hhit : ∀ s', Γ.Next p s s' → (p.view s').rows k = none → Q true (p.write s' k (some r)) s') :
    Γ.Safe Q (Prog.insert k r : Prog ρ ℓ ν ε Bool) p s := by
  intro s' hs'
  have hmiss' := hmiss s'
  have hhit' := hhit s' hs'
  cases hrow : (p.view s').rows k with
  | none => exact hhit' hrow
  | some old => exact hmiss' old hs' hrow

theorem Safe.transaction {m : Prog ρ ℓ ν ε β} {Q : β → Pending ρ ℓ → Store ρ ℓ → Prop}
    (h : Γ.Safe (fun a p s => ∀ s', Γ.Next p s s' → Γ.Ok p s' →
      Γ.Inv (p.view s') ∧ Γ.Step s' (p.view s') ∧ Q a .empty (p.view s')) m p s) :
    Γ.Safe Q (Prog.transaction m) p s := .bind h

end Protocol

/-! ## Runs -/

section Locks

variable {s : System ρ ℓ ν ε α χ} {t : SessionId} {session : Session ρ ℓ ν ε α χ}
variable {live : Table SessionId (Session ρ ℓ ν ε α χ)} {k : κ}

/-- No row is locked twice. -/
def Apart (live : Table SessionId (Session ρ ℓ ν ε α χ)) : Prop :=
  ∀ t t' a b k, live.get t = some a → live.get t' = some b → a.pending.locks k = true →
    b.pending.locks k = true → t = t'

theorem System.not_locked (h : s.locked t k = false) {t' : SessionId}
    {other : Session ρ ℓ ν ε α χ} (hne : t' ≠ t) (hget : s.live.get t' = some other) :
    other.pending.locks k = false := by
  have hnone := List.any_eq_false.mp h (t', other) (s.live.get_eq_some.mp hget)
  simpa [hne] using hnone

theorem Apart.set (h : Apart live)
    (hothers : ∀ t' other k, t' ≠ t → live.get t' = some other → session.pending.locks k = true →
      other.pending.locks k = false) : Apart (live.set t session) := by
  intro t₁ t₂ a b k h₁ h₂ hk₁ hk₂
  by_cases ht₁ : t₁ = t
  · by_cases ht₂ : t₂ = t
    · exact ht₁.trans ht₂.symm
    · subst ht₁
      rw [Table.get_set_self] at h₁
      rw [Table.get_set_ne _ ht₂] at h₂
      cases h₁
      rw [hothers t₂ b k ht₂ h₂ hk₁] at hk₂
      cases hk₂
  · rw [Table.get_set_ne _ ht₁] at h₁
    by_cases ht₂ : t₂ = t
    · subst ht₂
      rw [Table.get_set_self] at h₂
      cases h₂
      rw [hothers t₁ a k ht₁ h₁ hk₂] at hk₁
      cases hk₁
    · rw [Table.get_set_ne _ ht₂] at h₂
      exact h t₁ t₂ a b k h₁ h₂ hk₁ hk₂

theorem Apart.erase (h : Apart live) : Apart (live.erase t) := by
  intro t₁ t₂ a b k h₁ h₂
  have h₁' := live.forall_erase (fun _ _ hget => hget) t₁ a h₁
  have h₂' := live.forall_erase (fun _ _ hget => hget) t₂ b h₂
  exact h t₁ t₂ a b k h₁' h₂'

/-- What one session has locked, no other has. -/
theorem Apart.other (h : Apart live) (hget : live.get t = some session) {t' : SessionId}
    {other : Session ρ ℓ ν ε α χ} (hne : t' ≠ t) (hget' : live.get t' = some other)
    (hlock : session.pending.locks k = true) : other.pending.locks k = false := by
  cases hother : other.pending.locks k with
  | false => rfl
  | true => exact absurd (h t' t other session k hget' hget hother hlock) hne

end Locks

section Runs

variable [DecidableEq κ] (Γ : Protocol ρ ℓ) (Reply : χ → α → Store ρ ℓ → Prop)

/-- The store changes by commits only. -/
theorem step_store {body : χ → Prog ρ ℓ ν ε α} {s s' : System ρ ℓ ν ε α χ} {e : Event ν χ}
    (h : step body s e = some s') :
    s'.store = ((s.commits e).map fun p => p.view s.store).getD s.store := by
  cases e with
  | start | abort =>
    simp only [step] at h
    split at h
    · cases h
      rfl
    · cases h
  | run =>
    simp only [step] at h
    split at h
    · rename_i session hget
      simp only [System.commits, hget, Option.bind_some]
      simp only [System.stepSession] at h
      split at h <;> rename_i hprog
      · cases h
        simp [hprog, System.finish]
      · cases h
        simp [hprog, System.finish]
      · cases h
        simp [hprog, System.resume]
      · cases h
        simp [hprog, System.resume]
      · split at h
        · cases h
          simp [hprog, System.resume]
        · split at h
          · cases h
          · cases h
            simp [hprog, System.resume]
      · cases h
        simp [hprog, System.resume]
      · cases h
        simp [hprog, System.resume]
      · cases h
        simp [hprog, System.resume]
    · cases h

/-- A commit waits for no one. -/
theorem commits_of_step_none {body : χ → Prog ρ ℓ ν ε α} {s : System ρ ℓ ν ε α χ} {e : Event ν χ}
    (h : step body s e = none) : s.commits e = none := by
  cases e with
  | start => rfl
  | abort => rfl
  | run t =>
    cases hget : s.live.get t with
    | none => simp [System.commits, hget]
    | some =>
      simp only [step, hget, System.stepSession] at h
      simp only [System.commits, hget, Option.bind_some]
      split at h <;> rename_i hprog
      all_goals first
        | cases h
        | simp [hprog]

/-- What holds in every state of a system whose programs are safe. -/
structure Good (s : System ρ ℓ ν ε α χ) : Prop where
  inv : Γ.Inv s.store
  fits : ∀ t session, s.live.get t = some session → session.pending.Fits s.store
  apart : Apart s.live
  safe : ∀ t session, s.live.get t = some session → ∃ s₀, Γ.Later s₀ s.store ∧
    Γ.Safe (fun a _ s => Reply session.call a s) session.prog session.pending s₀
  replies : ∀ call a, (call, .ok a) ∈ s.replies → Reply call a s.store

/-- A commit of the run may rely on `Ok`. -/
def CommitsOk (s : System ρ ℓ ν ε α χ) (e : Event ν χ) : Prop :=
  ∀ p, s.commits e = some p → Γ.Ok p s.store

variable {Γ Reply} {s s' : System ρ ℓ ν ε α χ} {t : SessionId} {session : Session ρ ℓ ν ε α χ}

theorem Good.initial {store : Store ρ ℓ} (h : Γ.Inv store) :
    Good Γ Reply (System.initial store : System ρ ℓ ν ε α χ) where
  inv := h
  fits t session hget := by cases hget
  apart t t' a b k hget := by cases hget
  safe t session hget := by cases hget
  replies call a hmem := absurd hmem List.not_mem_nil

/-- The session's next statement comes after the ones it was safe at. -/
theorem Good.next (h : Good Γ Reply s) (hget : s.live.get t = some session) {s₀ : Store ρ ℓ}
    (hlater : Γ.Later s₀ s.store) : Γ.Next session.pending s₀ s.store :=
  ⟨hlater, h.inv, h.fits t session hget⟩

/-- A session goes on. -/
theorem Good.resume (h : Good Γ Reply s) (hfits : session.pending.Fits s.store)
    (hothers : ∀ t' other k, t' ≠ t → s.live.get t' = some other →
      session.pending.locks k = true → other.pending.locks k = false)
    (hsafe : Γ.Safe (fun a _ s => Reply session.call a s) session.prog session.pending s.store) :
    Good Γ Reply (s.resume t session) where
  inv := h.inv
  fits := s.live.forall_set h.fits hfits
  apart := h.apart.set hothers
  safe := s.live.forall_set h.safe ⟨s.store, .refl, hsafe⟩
  replies := h.replies

/-- With the locks it had. -/
theorem Good.proceed (h : Good Γ Reply s) (hget : s.live.get t = some session)
    {p : Pending ρ ℓ} (hp : p.rows = session.pending.rows) {prog : Prog ρ ℓ ν ε α}
    (hsafe : ∃ s₀, Γ.Later s₀ s.store ∧ Γ.Safe (fun a _ s => Reply session.call a s) prog p s₀) :
    Good Γ Reply (s.resume t { session with pending := p, prog := prog }) where
  inv := h.inv
  fits := by
    refine s.live.forall_set h.fits fun k v hv => ?_
    rw [hp] at hv
    exact h.fits t session hget k v hv
  apart := by
    refine h.apart.set fun t' other k hne hget' hlock => ?_
    rw [Pending.locks, hp] at hlock
    exact h.apart.other hget hne hget' hlock
  safe := s.live.forall_set h.safe hsafe
  replies := h.replies

theorem Good.erase (h : Good Γ Reply s) :
    Good Γ Reply { s with live := s.live.erase t } where
  inv := h.inv
  fits := s.live.forall_erase h.fits
  apart := h.apart.erase
  safe := s.live.forall_erase h.safe
  replies := h.replies

theorem Good.finish (h : Good Γ Reply s) {call : χ} {reply : Except ε α}
    (hreply : ∀ a, reply = .ok a → Reply call a s.store) :
    Good Γ Reply (s.finish t call reply) where
  inv := h.inv
  fits := h.erase.fits
  apart := h.erase.apart
  safe := h.erase.safe
  replies c a hmem := by
    rcases List.mem_append.mp hmem with hold | hnew
    · exact h.replies c a hold
    · cases List.mem_singleton.mp hnew
      exact hreply a rfl

/-- What a transaction has locked, no one else has written; so what the
others have locked stays as it was. -/
theorem Good.commit (h : Good Γ Reply s) (hget : s.live.get t = some session)
    (hreply : ∀ call a s s', Γ.Step s s' → Reply call a s → Reply call a s')
    (hinv : Γ.Inv (session.pending.view s.store))
    (hcommit : Γ.Step s.store (session.pending.view s.store)) {next : Prog ρ ℓ ν ε α}
    (hnext : Γ.Safe (fun a _ s => Reply session.call a s) next .empty
      (session.pending.view s.store)) :
    Good Γ Reply ({ s with store := session.pending.view s.store }.resume t
      { session with pending := .empty, prog := next }) where
  inv := hinv
  fits := by
    intro t' other hget'
    by_cases hne : t' = t
    · subst hne
      simp only [System.resume, Table.get_set_self] at hget'
      cases hget'
      exact Pending.fits_empty
    · simp only [System.resume, Table.get_set_ne _ hne] at hget'
      refine (h.fits t' other hget').of_rows fun k hk => ?_
      cases hrow : session.pending.rows k with
      | none => exact Pending.view_rows_none hrow
      | some =>
        have hlock : session.pending.locks k = true := by simp [Pending.locks, hrow]
        rw [h.apart.other hget hne hget' hlock] at hk
        cases hk
  apart := by
    refine h.apart.set fun t' other k hne hget' hlock => ?_
    cases hlock
  safe := by
    refine s.live.forall_set (fun t' other hget' => ?_) ⟨_, .refl, hnext⟩
    obtain ⟨s₀, hs₀, hsafe⟩ := h.safe t' other hget'
    exact ⟨s₀, hs₀.tail hcommit, hsafe⟩
  replies call a hmem := hreply call a _ _ hcommit (h.replies call a hmem)

variable {body : χ → Prog ρ ℓ ν ε α}

/-- One step keeps the protocol; the store stays, or a commit is made. -/
theorem Good.step (hreply : ∀ call a s s', Γ.Step s s' → Reply call a s → Reply call a s')
    (hbody : ∀ call s, Γ.Inv s → Γ.Safe (fun a _ s => Reply call a s) (body call) .empty s)
    (h : Good Γ Reply s) {e : Event ν χ} (hok : CommitsOk Γ s e) (hstep : step body s e = some s') :
    Good Γ Reply s' ∧ (s'.store = s.store ∨ Γ.Step s.store s'.store) := by
  cases e with
  | start t call =>
    simp only [ReadCommitted.step] at hstep
    split at hstep
    · cases hstep
      refine ⟨h.resume Pending.fits_empty (fun _ _ _ _ _ hlock => ?_) (hbody call _ h.inv), .inl rfl⟩
      cases hlock
    · cases hstep
  | abort =>
    simp only [ReadCommitted.step] at hstep
    split at hstep
    · cases hstep
      exact ⟨h.erase, .inl rfl⟩
    · cases hstep
  | run t answer =>
    simp only [ReadCommitted.step] at hstep
    split at hstep
    · rename_i session hget
      obtain ⟨s₀, hs₀, hsafe⟩ := h.safe t session hget
      have hnow := h.next hget hs₀
      simp only [System.stepSession] at hstep
      split at hstep
      · rename_i a hprog
        cases hstep
        rw [hprog] at hsafe
        refine ⟨h.finish fun b hb => ?_, .inl rfl⟩
        cases hb
        exact hs₀.keeps (hreply _ _) hsafe
      · cases hstep
        exact ⟨h.finish fun b hb => (by cases hb), .inl rfl⟩
      · rename_i next hprog
        cases hstep
        rw [hprog] at hsafe
        exact ⟨h.proceed hget rfl ⟨_, .refl, hsafe _ hnow⟩, .inl rfl⟩
      · rename_i f next hprog
        cases hstep
        rw [hprog] at hsafe
        exact ⟨h.proceed (p := session.pending.note _) hget rfl ⟨_, .refl, hsafe _ hnow⟩, .inl rfl⟩
      · rename_i k f next hprog
        rw [hprog] at hsafe
        have hwrite := hsafe _ hnow
        split at hstep
        · rename_i hf
          rw [hf] at hwrite
          cases hstep
          exact ⟨h.proceed hget rfl ⟨_, .refl, hwrite⟩, .inl rfl⟩
        · rename_i r hf
          rw [hf] at hwrite
          split at hstep
          · cases hstep
          · rename_i hfree
            cases hstep
            refine ⟨h.resume hnow.fits.write ?_ hwrite, .inl rfl⟩
            intro t' other j hne hget' hlock
            rw [Pending.locks_write, Bool.or_eq_true, decide_eq_true_iff] at hlock
            rcases hlock with hlock | rfl
            · exact h.apart.other hget hne hget' hlock
            · exact System.not_locked (by simpa using hfree) hne hget'
      · rename_i l next hprog
        cases hstep
        rw [hprog] at hsafe
        exact ⟨h.proceed (p := session.pending.append l) hget rfl ⟨s₀, hs₀, hsafe⟩, .inl rfl⟩
      · rename_i next hprog
        cases hstep
        rw [hprog] at hsafe
        exact ⟨h.proceed hget rfl ⟨s₀, hs₀, hsafe answer⟩, .inl rfl⟩
      · rename_i next hprog
        cases hstep
        rw [hprog] at hsafe
        obtain ⟨hinv, hcommit, hnext⟩ := hsafe _ hnow (hok _ (by simp [System.commits, hget, hprog]))
        exact ⟨h.commit hget hreply hinv hcommit hnext, .inr hcommit⟩
    · cases hstep

/-- The rule: safe programs keep the protocol, in every run. -/
theorem Good.run (hreply : ∀ call a s s', Γ.Step s s' → Reply call a s → Reply call a s')
    (hbody : ∀ call s, Γ.Inv s → Γ.Safe (fun a _ s => Reply call a s) (body call) .empty s)
    (h : Good Γ Reply s) {es : List (Event ν χ)}
    (hok : Along (ReadCommitted.step body) (CommitsOk Γ) s es)
    (hrun : Lib.run (ReadCommitted.step body) s es = some s') :
    Good Γ Reply s' ∧ Γ.Later s.store s'.store := by
  refine run_induct (P := fun s' => Good Γ Reply s' ∧ Γ.Later s.store s'.store) ?_ ⟨h, .refl⟩
    hok hrun
  rintro _ e _ hok₁ ⟨hgood, hlater⟩ hstep
  obtain ⟨hgood', hsame | hcommit⟩ := hgood.step hreply hbody hok₁ hstep
  · rw [hsame]
    exact ⟨hgood', hlater⟩
  · exact ⟨hgood', hlater.tail hcommit⟩

end Runs

end Scadium.Lib.ReadCommitted
