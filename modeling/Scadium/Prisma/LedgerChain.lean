/-
Scadium.Prisma.LedgerChain — what the ledger says of the balances, under
Read Committed.

`Ledgered` are the programs that move balances through `applyBalanceDelta`
only, a rejected movement caught or not. In every run of such programs the
balances stay non-negative and move by the rows that are committed.

A row records the balance its transaction saw. A movement of nothing takes
no lock, so what it saw may be old when it is committed; all others record
the balance they made. The rows of a balance form a chain up to what is
stored exactly as long as that does not happen.
-/
import Mathlib.Data.List.Chain
import Scadium.Prisma.Sessions

namespace Scadium.Prisma.Sessions

open Scadium.Lib Scadium.Lib.ReadCommitted

/-! ## Chains of rows -/

/-- The balance that is stored; a user who is not there has none. -/
def balanceOf (s : Tables) (u : UserId) (c : Currency) : Int :=
  match s.rows (.user u) with
  | some user => user.balance c
  | none => 0

def rowsOf (u : UserId) (c : Currency) (rows : List BalanceLedger) : List BalanceLedger :=
  rows.filter fun r => r.userId = u ∧ r.currency = c

/-- Each row takes on the balance of the one before it, and the last is what
is stored. -/
structure Chained (rows : List BalanceLedger) (stored : Int) : Prop where
  links : rows.IsChain fun a b => b.balanceAfter = a.balanceAfter + b.delta
  last : ∀ r, rows.getLast? = some r → r.balanceAfter = stored

/-- Every balance's rows do. -/
def LedgerChained (s : Tables) : Prop := ∀ u c, Chained (rowsOf u c s.log) (balanceOf s u c)

/-- What rows move on one balance. -/
def movedBy (rows : List BalanceLedger) (u : UserId) (c : Currency) : Int :=
  moved (rows.map (·.posting)) u c

/-- Rows that record what `bal` becomes by them. -/
def Exact (bal : UserId → Currency → Int) (P : BalanceLedger → Prop) (rows : List BalanceLedger) :
    Prop :=
  ∀ before r after, rows = before ++ r :: after → P r →
    r.balanceAfter = bal r.userId r.currency + movedBy before r.userId r.currency + r.delta

section Chains

variable {rows : List BalanceLedger} {r : BalanceLedger} {b : Int} {u : UserId} {c : Currency}
variable {bal : UserId → Currency → Int} {P Q : BalanceLedger → Prop}

theorem movedBy_append (xs ys : List BalanceLedger) :
    movedBy (xs ++ ys) u c = movedBy xs u c + movedBy ys u c := by
  simp [movedBy, moved_append]

theorem movedBy_single : movedBy [r] u c = if r.userId = u ∧ r.currency = c then r.delta else 0 := by
  simp [movedBy, BalanceLedger.posting]

theorem rowsOf_append (xs ys : List BalanceLedger) :
    rowsOf u c (xs ++ ys) = rowsOf u c xs ++ rowsOf u c ys := List.filter_append _ _

theorem chained_nil : Chained [] b where
  links := .nil
  last r h := by cases h

/-- One more row. -/
theorem chained_concat :
    Chained (rows ++ [r]) (b + r.delta) ↔ Chained rows b ∧ r.balanceAfter = b + r.delta := by
  constructor
  · intro h
    have hr : r.balanceAfter = b + r.delta := h.last r (by simp)
    refine ⟨⟨(List.isChain_append.mp h.links).1, ?_⟩, hr⟩
    intro a ha
    have hlink := (List.isChain_append.mp h.links).2.2 a ha r (by simp)
    omega
  · rintro ⟨h, hr⟩
    refine ⟨?_, ?_⟩
    · refine List.isChain_append.mpr ⟨h.links, .singleton r, ?_⟩
      intro a ha a' ha'
      cases ha'
      rw [hr, h.last a ha]
    · intro a ha
      rw [List.getLast?_concat] at ha
      cases ha
      exact hr

/-- A row of a list with one more is the last, or one of before. -/
theorem concat_split {before after : List BalanceLedger} {a : BalanceLedger}
    (h : rows ++ [a] = before ++ r :: after) :
    (before = rows ∧ r = a) ∨ ∃ after', rows = before ++ r :: after' := by
  rcases List.eq_nil_or_concat after with rfl | ⟨after', a', rfl⟩
  · obtain ⟨rfl, hlast⟩ := List.append_inj' h rfl
    cases hlast
    exact .inl ⟨rfl, rfl⟩
  · have hsplit : rows ++ [a] = (before ++ r :: after') ++ [a'] := by simp [h]
    obtain ⟨hrows, -⟩ := List.append_inj' hsplit rfl
    exact .inr ⟨after', hrows⟩

theorem exact_concat : Exact bal P (rows ++ [r]) ↔ Exact bal P rows ∧
    (P r → r.balanceAfter = bal r.userId r.currency + movedBy rows r.userId r.currency + r.delta) := by
  constructor
  · intro h
    refine ⟨?_, h rows r [] rfl⟩
    intro before a after heq
    exact h before a (after ++ [r]) (by simp [heq])
  · rintro ⟨h, hr⟩ before a _ heq
    rcases concat_split heq with ⟨rfl, rfl⟩ | ⟨after', hrows⟩
    · exact hr
    · exact h before a after' hrows

theorem exact_nil : Exact bal P [] := by
  intro before r after heq
  simp at heq

theorem Exact.and (h : Exact bal P rows) (h' : Exact bal Q rows) (hPQ : ∀ r, P r ∨ Q r) :
    Exact bal (fun _ => True) rows := by
  intro before r after heq _
  rcases hPQ r with hP | hQ
  · exact h before r after heq hP
  · exact h' before r after heq hQ

/-- New rows continue the chains exactly if they record the balances. -/
theorem chained_append {old : List BalanceLedger} (h : ∀ u c, Chained (rowsOf u c old) (bal u c)) :
    (∀ u c, Chained (rowsOf u c (old ++ rows)) (bal u c + movedBy rows u c)) ↔
      Exact bal (fun _ => True) rows := by
  induction rows using List.reverseRecOn with
  | nil => simp [exact_nil, movedBy, h]
  | append_singleton rows r ih =>
    rw [exact_concat, ← ih]
    -- the row is one of a single balance
    have hother : ∀ u c, ¬ (r.userId = u ∧ r.currency = c) →
        rowsOf u c (old ++ (rows ++ [r])) = rowsOf u c (old ++ rows) ∧
        movedBy (rows ++ [r]) u c = movedBy rows u c := by
      intro u c hne
      constructor
      · rw [← List.append_assoc, rowsOf_append]
        simp [rowsOf, hne]
      · rw [movedBy_append, movedBy_single, if_neg hne, Int.add_zero]
    have hown : rowsOf r.userId r.currency (old ++ (rows ++ [r])) =
        rowsOf r.userId r.currency (old ++ rows) ++ [r] := by
      rw [← List.append_assoc, rowsOf_append]
      simp [rowsOf]
    have hmoved : bal r.userId r.currency + movedBy (rows ++ [r]) r.userId r.currency =
        bal r.userId r.currency + movedBy rows r.userId r.currency + r.delta := by
      rw [movedBy_append, movedBy_single, if_pos ⟨rfl, rfl⟩]
      omega
    constructor
    · intro hall
      have hr := hall r.userId r.currency
      rw [hown, hmoved, chained_concat] at hr
      refine ⟨?_, fun _ => hr.2⟩
      intro u c
      by_cases hrow : r.userId = u ∧ r.currency = c
      · obtain ⟨rfl, rfl⟩ := hrow
        exact hr.1
      · have hu := hall u c
        rwa [(hother u c hrow).1, (hother u c hrow).2] at hu
    · rintro ⟨hall, hr⟩ u c
      by_cases hrow : r.userId = u ∧ r.currency = c
      · obtain ⟨rfl, rfl⟩ := hrow
        rw [hown, hmoved, chained_concat]
        exact ⟨hall _ _, hr trivial⟩
      · rw [(hother u c hrow).1, (hother u c hrow).2]
        exact hall u c

end Chains

/-! ## Programs that keep the books -/

/-- A write that moves no balance: of another table, or of another column. -/
def MovesNothing : (k : Key) → (Option (Row k) → Option (Option (Row k))) → Prop
  | .user _, f => ∀ row new, f row = some new →
      ∃ old user, row = some old ∧ new = some user ∧ user.balance = old.balance
  | _, _ => True

/-- Every movement of a balance is one of `applyBalanceDelta`. -/
inductive Ledgered {α : Type} : SessionProg α → Prop where
  | done (a : α) : Ledgered (.done a)
  | throw (e : TxError) : Ledgered (.throw e)
  | read {next} : (∀ s, Ledgered (next s)) → Ledgered (.read next)
  | count {f next} : (∀ n, Ledgered (next n)) → Ledgered (.count f next)
  | write {k f next} : MovesNothing k f → (∀ b, Ledgered (next b)) → Ledgered (.write k f next)
  | ask {next} : (∀ v, Ledgered (next v)) → Ledgered (.ask next)
  | commit {next} : Ledgered next → Ledgered (.commit next)
  | move {next} (userId : UserId) (delta : Int) (info : DeltaMeta) : (∀ r, Ledgered (next r)) →
      Ledgered ((applyBalanceDelta userId delta info).attempt.bind next)

namespace Ledgered

variable {α β : Type}

theorem bind {m : SessionProg α} {g : α → SessionProg β} (h : Ledgered m) (hg : ∀ a, Ledgered (g a)) :
    Ledgered (m >>= g) := by
  show Ledgered (m.bind g)
  induction h with
  | done a => exact hg a
  | throw e => exact .throw e
  | read _ ih => exact .read ih
  | count _ ih => exact .count ih
  | write hf _ ih => exact .write hf ih
  | ask _ ih => exact .ask ih
  | commit _ ih => exact .commit ih
  | move userId delta info _ ih =>
    rw [Prog.bind_assoc]
    exact .move userId delta info ih

theorem pure (a : α) : Ledgered (Pure.pure a) := .done a

theorem query (f : Tables → α) : Ledgered (Prog.query f) := .read fun s => .done (f s)

theorem answer : Ledgered Prog.answer := .ask fun v => .done v

theorem countRows (f : Tables → Nat) : Ledgered (Prog.countRows f) := .count fun n => .done n

theorem transaction {m : SessionProg α} (h : Ledgered m) : Ledgered (Prog.transaction m) :=
  h.bind fun a => .commit (.done a)

/-- A movement that is not caught. -/
theorem balance (userId : UserId) (delta : Int) (info : DeltaMeta) :
    Ledgered (applyBalanceDelta userId delta info) := by
  have hcaught : Ledgered ((applyBalanceDelta userId delta info).attempt.bind (Prog.orThrow Prog.done)) := by
    refine .move userId delta info fun r => ?_
    cases r with
    | ok a => exact .done a
    | error e => exact .throw e
  rwa [Prog.attempt_orThrow, Prog.bind_done] at hcaught

theorem movesNothing_of_ne {k : Key} {f : Option (Row k) → Option (Option (Row k))}
    (hk : ∀ u, k ≠ .user u) : MovesNothing k f := by
  cases k with
  | user u => exact absurd rfl (hk u)
  | _ => trivial

/-- Writes of other tables. -/
theorem update {k : Key} (hk : ∀ u, k ≠ .user u) (f : Row k → Option (Row k)) :
    Ledgered (Prog.update k f) := .write (movesNothing_of_ne hk) fun b => .done b

theorem insert {k : Key} (hk : ∀ u, k ≠ .user u) (r : Row k) : Ledgered (Prog.insert k r) :=
  .write (movesNothing_of_ne hk) fun b => .done b

theorem updateOrThrow {k : Key} (hk : ∀ u, k ≠ .user u) (data : Row k → Row k) :
    Ledgered (updateOrThrow k data) := by
  refine (update hk _).bind fun hit => ?_
  split
  · exact .pure ()
  · exact .throw _

theorem updateManyOrThrow {k : Key} (hk : ∀ u, k ≠ .user u) (guard : Row k → Bool)
    (data : Row k → Row k) (e : TxError) : Ledgered (updateManyOrThrow k guard data e) := by
  refine (update hk _).bind fun hit => ?_
  split
  · exact .pure ()
  · exact .throw _

theorem create {k : Key} (hk : ∀ u, k ≠ .user u) (r : Row k) : Ledgered (create k r) := by
  refine (insert hk r).bind fun new => ?_
  split
  · exact .pure ()
  · exact .throw _

/-- Writes of the other columns of a user. -/
theorem updateUser {u : UserId} {f : User → Option User}
    (hf : ∀ old new, f old = some new → new.balance = old.balance) :
    Ledgered (Prog.update (.user u) f) := by
  refine .write ?_ fun b => .done b
  intro row new hnew
  cases row with
  | none => cases hnew
  | some old =>
    obtain ⟨user, huser, rfl⟩ := Option.map_eq_some_iff.mp hnew
    exact ⟨old, user, rfl, rfl, hf old user huser⟩

theorem claimIdempotency (userId : UserId) (scope : String) (key : Option String) :
    Ledgered (claimIdempotency userId scope key) := by
  unfold Sessions.claimIdempotency
  split
  · exact .pure none
  · refine (insert (by simp) _).bind fun fresh => ?_
    split
    · exact .pure none
    · refine (query _).bind fun existing => ?_
      split
      · exact .pure _
      · exact .throw _

theorem storeIdempotency (userId : UserId) (scope : String) (key : Option String) (r : Response) :
    Ledgered (storeIdempotency userId scope key r) := by
  unfold Sessions.storeIdempotency
  split
  · exact .pure ()
  · exact updateOrThrow (by simp) _

end Ledgered

/-- What a transaction has written is in order: every user it has locked is
moved by its rows, no other is, and a row of a movement records what it made
of the committed balance. -/
structure Accounted (p : Writes) : Prop where
  locked : ∀ u v, p.rows (.user u) = some v → ∃ old new, v.before = some old ∧ v.after = some new ∧
    ∀ c, new.balance c = old.balance c + movedBy p.log u c ∧ 0 ≤ new.balance c
  free : ∀ u, p.rows (.user u) = none → ∀ c, movedBy p.log u c = 0
  recorded : ∀ before r after, p.log = before ++ r :: after → r.delta ≠ 0 →
    ∃ v old, p.rows (.user r.userId) = some v ∧ v.before = some old ∧
      r.balanceAfter = old.balance r.currency + movedBy before r.userId r.currency + r.delta

/-- What is committed, and what a commit does. -/
def ledgerProtocol : Protocol Row BalanceLedger where
  Inv s := ∀ u c, 0 ≤ balanceOf s u c
  Step s s' := ∃ rows, s'.log = s.log ++ rows ∧
    (∀ u c, balanceOf s' u c = balanceOf s u c + movedBy rows u c) ∧
    Exact (balanceOf s) (fun r => r.delta ≠ 0) rows
  Ok _ _ := True

section Accounts

variable {p : Writes} {s : Tables} {u : UserId} {c : Currency}

theorem accounted_empty : Accounted .empty where
  locked u v h := by cases h
  free u _ c := rfl
  recorded before r after h := by simp at h

/-- What the transaction sees of a balance is never negative. -/
theorem Accounted.user (h : Accounted p) (hs : ∀ u c, 0 ≤ balanceOf s u c) {user : User}
    (huser : (p.view s).rows (.user u) = some user) (c : Currency) : 0 ≤ user.balance c := by
  cases hrow : p.rows (.user u) with
  | none =>
    rw [Pending.view_rows_none hrow] at huser
    have hnonneg := hs u c
    simpa [balanceOf, huser] using hnonneg
  | some v =>
    obtain ⟨_, _, -, hafter, hnew⟩ := h.locked u v hrow
    rw [Pending.view_rows_some hrow, hafter] at huser
    cases huser
    exact (hnew c).2

/-- The balance it sees is the committed one and what it has moved. -/
theorem Accounted.view (h : Accounted p) (hfits : p.Fits s) :
    balanceOf (p.view s) u c = balanceOf s u c + movedBy p.log u c := by
  cases hrow : p.rows (.user u) with
  | none => simp [balanceOf, Pending.view_rows_none hrow, h.free u hrow c]
  | some v =>
    obtain ⟨old, _, hbefore, hafter, hnew⟩ := h.locked u v hrow
    have hcommitted : s.rows (.user u) = some old := (hfits _ v hrow).trans hbefore
    simp [balanceOf, Pending.view_rows_some hrow, hafter, hcommitted, hnew c]

theorem Accounted.view_nonneg (h : Accounted p) (hs : ∀ u c, 0 ≤ balanceOf s u c) :
    0 ≤ balanceOf (p.view s) u c := by
  unfold balanceOf
  split
  · rename_i user huser
    exact h.user hs huser c
  · exact Int.le_refl 0

theorem Accounted.exact (h : Accounted p) (hfits : p.Fits s) :
    Exact (balanceOf s) (fun r => r.delta ≠ 0) p.log := by
  intro before r after heq hdelta
  obtain ⟨v, old, hrow, hbefore, hrecorded⟩ := h.recorded before r after heq hdelta
  have hcommitted : s.rows (.user r.userId) = some old := (hfits _ v hrow).trans hbefore
  simpa [balanceOf, hcommitted] using hrecorded

/-- Under what it sees of a user is the committed row, if it has locked the
user the one it has locked. -/
theorem Accounted.base (h : Accounted p) (hfits : p.Fits s) {user : User}
    (huser : (p.view s).rows (.user u) = some user) : ∃ old, p.base s (.user u) = some old ∧
      ∀ c, user.balance c = old.balance c + movedBy p.log u c := by
  rw [Pending.base_of_fits hfits]
  cases hrow : p.rows (.user u) with
  | none =>
    rw [Pending.view_rows_none hrow] at huser
    exact ⟨user, huser, by simp [h.free u hrow]⟩
  | some v =>
    obtain ⟨old, _, hbefore, hafter, hnew⟩ := h.locked u v hrow
    rw [Pending.view_rows_some hrow, hafter] at huser
    cases huser
    exact ⟨old, (hfits _ v hrow).trans hbefore, fun c => (hnew c).1⟩

/-- The user of a row of a movement stays locked, with the same committed
row under it. -/
theorem Accounted.recorded_write (h : Accounted p) (hfits : p.Fits s) {k : Key} {r : Option (Row k)}
    {before after : List BalanceLedger} {row : BalanceLedger} (heq : p.log = before ++ row :: after)
    (hdelta : row.delta ≠ 0) : ∃ v old, (p.write s k r).rows (.user row.userId) = some v ∧
      v.before = some old ∧ row.balanceAfter =
        old.balance row.currency + movedBy before row.userId row.currency + row.delta := by
  obtain ⟨v, old, hrow, hbefore, hrecorded⟩ := h.recorded before row after heq hdelta
  by_cases hk : Key.user row.userId = k
  · subst hk
    refine ⟨_, old, Pending.write_rows_self, ?_, hrecorded⟩
    rw [Pending.base_of_fits hfits, hfits _ v hrow, hbefore]
  · exact ⟨v, old, by rw [Pending.write_rows_ne hk, hrow], hbefore, hrecorded⟩

/-- A write of another table. -/
theorem Accounted.write_other (h : Accounted p) (hfits : p.Fits s) {k : Key}
    (hk : ∀ u, k ≠ .user u) (r : Option (Row k)) : Accounted (p.write s k r) where
  locked u v hrow := by
    rw [Pending.write_rows_ne fun heq => hk u heq.symm] at hrow
    exact h.locked u v hrow
  free u hrow c := by
    rw [Pending.write_rows_ne fun heq => hk u heq.symm] at hrow
    exact h.free u hrow c
  recorded before row after heq hdelta := h.recorded_write hfits heq hdelta

/-- A write of a user, from what is seen of it. -/
theorem Accounted.write_user (h : Accounted p) (hfits : p.Fits s) (hs : ∀ u c, 0 ≤ balanceOf s u c)
    {old new : User} (hold : (p.view s).rows (.user u) = some old)
    (hnew : new.balance = old.balance) :
    Accounted (p.write s (.user u) (some new)) where
  locked u' v hrow := by
    by_cases hu : u' = u
    · subst hu
      rw [Pending.write_rows_self] at hrow
      cases hrow
      obtain ⟨base, hbase, hmoved⟩ := h.base hfits hold
      refine ⟨base, new, hbase, rfl, fun c => ?_⟩
      rw [hnew]
      exact ⟨hmoved c, h.user hs hold c⟩
    · rw [Pending.write_rows_ne fun heq => hu (by cases heq; rfl)] at hrow
      exact h.locked u' v hrow
  free u' hrow c := by
    by_cases hu : u' = u
    · subst hu
      rw [Pending.write_rows_self] at hrow
      cases hrow
    · rw [Pending.write_rows_ne fun heq => hu (by cases heq; rfl)] at hrow
      exact h.free u' hrow c
  recorded before row after heq hdelta := h.recorded_write hfits heq hdelta

theorem Accounted.write (h : Accounted p) (hfits : p.Fits s) (hs : ∀ u c, 0 ≤ balanceOf s u c)
    {k : Key} {f : Option (Row k) → Option (Option (Row k))} (hf : MovesNothing k f)
    {r : Option (Row k)} (hr : f ((p.view s).rows k) = some r) : Accounted (p.write s k r) := by
  cases k with
  | user =>
    obtain ⟨_, _, hold, rfl, hnew⟩ := hf _ r hr
    exact h.write_user hfits hs hold hnew
  | flip | seed | clientSeed | bet | idempotency | crashBet | transfer =>
    exact h.write_other hfits (by simp) r

/-- The row of a movement of nothing. -/
theorem Accounted.append_zero (h : Accounted p) {row : BalanceLedger} (hdelta : row.delta = 0) :
    Accounted (p.append row) where
  locked u v hrow := by
    simpa [movedBy_append, movedBy_single, hdelta] using h.locked u v hrow
  free u hrow c := by
    simpa [movedBy_append, movedBy_single, hdelta] using h.free u hrow c
  recorded before r after heq hr := by
    rcases concat_split heq with ⟨-, rfl⟩ | ⟨after', hlog⟩
    · exact absurd hdelta hr
    · exact h.recorded before r after' hlog hr

variable {userId : UserId} {delta : Int} {info : DeltaMeta} {old : User}

theorem increment_balance (old : User) (column c : Currency) (delta : Int) :
    (old.increment column delta).balance c = old.balance c + if column = c then delta else 0 := by
  by_cases hc : column = c
  · subst hc
    simp [User.increment]
  · have hne : c ≠ column := fun h => hc h.symm
    simp [User.increment, hc, hne]

/-- A movement with its row. -/
theorem Accounted.move (h : Accounted p) (hfits : p.Fits s) (hs : ∀ u c, 0 ≤ balanceOf s u c)
    (hold : (p.view s).rows (.user userId) = some old) (hadmits : Admits old delta info) :
    Accounted ((p.write s (.user userId) (some (old.increment info.currency delta))).append
      (movementRow userId delta info (old.balance info.currency + delta))) := by
  have hmoved : ∀ u c, movedBy (p.log ++ [movementRow userId delta info
      (old.balance info.currency + delta)]) u c = movedBy p.log u c +
        if userId = u ∧ info.currency = c then delta else 0 := by
    intro u c
    rw [movedBy_append, movedBy_single]
    rfl
  obtain ⟨base, hbase, hseen⟩ := h.base hfits hold
  have hnonneg : ∀ c, 0 ≤ old.balance c + if info.currency = c then delta else 0 := by
    intro c
    have hc := h.user hs hold c
    split
    · rename_i heq
      subst heq
      by_cases hneg : delta < 0
      · have := (hadmits.1 hneg).2
        omega
      · omega
    · omega
  refine ⟨?_, ?_, ?_⟩
  · intro u v hv
    rw [Pending.append_rows] at hv
    simp only [Pending.append_log, Pending.write_log, hmoved]
    by_cases hu : u = userId
    · subst hu
      rw [Pending.write_rows_self] at hv
      cases hv
      refine ⟨base, _, hbase, rfl, fun c => ?_⟩
      have hsum := hseen c
      rw [increment_balance]
      simp only [true_and]
      exact ⟨by omega, hnonneg c⟩
    · rw [Pending.write_rows_ne fun heq => hu (by cases heq; rfl)] at hv
      have hne : userId ≠ u := fun heq => hu heq.symm
      simpa [hne] using h.locked u v hv
  · intro u hv c
    rw [Pending.append_rows] at hv
    simp only [Pending.append_log, Pending.write_log, hmoved]
    by_cases hu : u = userId
    · subst hu
      rw [Pending.write_rows_self] at hv
      cases hv
    · rw [Pending.write_rows_ne fun heq => hu (by cases heq; rfl)] at hv
      have hne : userId ≠ u := fun heq => hu heq.symm
      simpa [hne] using h.free u hv c
  · intro before r after heq hr
    rcases concat_split heq with ⟨rfl, rfl⟩ | ⟨_, hlog⟩
    · refine ⟨_, base, Pending.write_rows_self, hbase, ?_⟩
      show old.balance info.currency + delta = base.balance info.currency +
        movedBy p.log userId info.currency + delta
      rw [hseen]
    · exact h.recorded_write hfits hlog hr

end Accounts

/-! ## The protocol is kept -/

section Kept

variable {α : Type} {m : SessionProg α} {p : Writes} {s : Tables}

theorem Ledgered.safe (h : Ledgered m) (hp : Accounted p) :
    ledgerProtocol.Safe (fun _ _ _ => True) m p s := by
  induction h generalizing p s with
  | done => trivial
  | throw => trivial
  | read _ ih => exact fun s' _ => ih _ hp
  | count _ ih => exact fun s' _ => ih _ ⟨hp.locked, hp.free, hp.recorded⟩
  | write hf _ ih =>
    intro s' hs'
    split
    · exact ih false hp
    · rename_i r hr
      exact ih true (hp.write hs'.fits hs'.inv hf hr)
  | ask _ ih => exact fun v => ih v hp
  | commit _ ih =>
    intro s' hs' _
    refine ⟨fun u c => hp.view_nonneg hs'.inv, ⟨p.log, rfl, ?_, hp.exact hs'.fits⟩,
      ih accounted_empty⟩
    exact fun u c => hp.view hs'.fits
  | move userId delta info _ ih =>
    refine .bind (safe_applyBalanceDelta_attempt ?_ ?_ ?_)
    · exact fun e s' _ => ih _ hp
    · exact fun s' user h0 _ _ => ih _ (hp.append_zero h0)
    · exact fun s' s'' old _ hs' hold hadmits _ => ih _ (hp.move hs'.fits hs'.inv hold hadmits)

theorem Ledgered.good {χ : Type} {body : χ → SessionProg α} (hbody : ∀ call, Ledgered (body call))
    {s s' : System Row BalanceLedger Env TxError α χ} {e : Event Env χ}
    (h : Good ledgerProtocol (fun _ _ _ => True) s) (hstep : ReadCommitted.step body s e = some s') :
    Good ledgerProtocol (fun _ _ _ => True) s' :=
  (h.step (fun _ _ _ _ _ _ => trivial) (fun call _ _ => (hbody call).safe accounted_empty)
    (fun _ _ => trivial) hstep).1

end Kept

/-! ## The chain -/

/-- What a movement of nothing has read is still so when it is committed:
no one has moved that balance since. -/
def FreshZeros {α χ : Type} (s : System Row BalanceLedger Env TxError α χ) (e : Event Env χ) :
    Prop :=
  ∀ p, s.commits e = some p → Exact (balanceOf s.store) (fun r => r.delta = 0) p.log

/-- The next state, if there is one, has its rows chained. -/
def StaysChained {α χ : Type} (body : χ → SessionProg α)
    (s : System Row BalanceLedger Env TxError α χ) (e : Event Env χ) : Prop :=
  ∀ s', ReadCommitted.step body s e = some s' → LedgerChained s'.store

/-- Anything may be committed in between. -/
def anyCommits : Protocol Row BalanceLedger where
  Inv _ := True
  Step _ _ := True
  Ok _ _ := True

/-- How a movement ends: rejected, with nothing written; or made, with one
row, and within its cap. -/
def MovementEnds (userId : UserId) (delta : Int) (info : DeltaMeta) (p : Writes) :
    Except TxError Int → Writes → Tables → Prop
  | .error _, p', _ => p' = p
  | .ok balanceAfter, p', s' =>
      p'.log = p.log ++ [movementRow userId delta info balanceAfter] ∧
      (0 < delta → ∀ cap, info.maxBalance = some cap →
        balanceOf (p'.view s') userId info.currency ≤ cap)

section Chain

variable {α χ : Type} {body : χ → SessionProg α} {s s' : System Row BalanceLedger Env TxError α χ}
variable {e : Event Env χ}

theorem safe_movementEnds (userId : UserId) (delta : Int) (info : DeltaMeta) (p : Writes)
    (s : Tables) : anyCommits.Safe (MovementEnds userId delta info p)
      (applyBalanceDelta userId delta info).attempt p s := by
  refine safe_applyBalanceDelta_attempt ?_ ?_ ?_
  · exact fun e s' _ => rfl
  · exact fun s' user h0 _ _ => ⟨rfl, fun hpos => by omega⟩
  · intro s' s'' old hne _ hold hadmits _
    refine ⟨rfl, fun hpos cap hcap => ?_⟩
    have hroom := hadmits.2 hpos cap hcap
    have hrow : (((p.write s' (.user userId) (some (old.increment info.currency delta))).append
        (movementRow userId delta info (old.balance info.currency + delta))).view s'').rows
        (.user userId) = some (old.increment info.currency delta) :=
      Pending.view_rows_some Pending.write_rows_self
    simp only [balanceOf, hrow, increment_balance, if_true]
    omega

/-- What a step does to the store and its ledger. -/
theorem ledger_step (hbody : ∀ call, Ledgered (body call))
    (h : Good ledgerProtocol (fun _ _ _ => True) s) (hstep : ReadCommitted.step body s e = some s') :
    ∃ rows, s'.store.log = s.store.log ++ rows ∧
      (∀ u c, balanceOf s'.store u c = balanceOf s.store u c + movedBy rows u c) ∧
      Exact (balanceOf s.store) (fun r => r.delta ≠ 0) rows := by
  obtain ⟨-, hsame | hcommit⟩ := h.step (fun _ _ _ _ _ _ => trivial)
    (fun call _ _ => (hbody call).safe accounted_empty) (fun _ _ => trivial) hstep
  · refine ⟨[], by simp [hsame], fun u c => ?_, exact_nil⟩
    simp [hsame, movedBy]
  · exact hcommit

/-- And a run, from an initial state. -/
theorem ledger_run (hbody : ∀ call, Ledgered (body call)) {store : Tables}
    (hnonneg : ∀ u c, 0 ≤ balanceOf store u c) {es : List (Event Env χ)}
    (hrun : Lib.run (ReadCommitted.step body) (System.initial store) es = some s') :
    ∃ rows, s'.store.log = store.log ++ rows ∧
      ∀ u c, balanceOf s'.store u c = balanceOf store u c + movedBy rows u c := by
  refine (run_induct (P := fun s => Good ledgerProtocol (fun _ _ _ => True) s ∧
    ∃ rows, s.store.log = store.log ++ rows ∧
      ∀ u c, balanceOf s.store u c = balanceOf store u c + movedBy rows u c)
    ?_ ?_ (along_true _ _) hrun).2
  · rintro s e _ - ⟨hgood, rows, hlog, hbalance⟩ hstep
    obtain ⟨rows', hlog', hbalance', -⟩ := ledger_step hbody hgood hstep
    refine ⟨Ledgered.good hbody hgood hstep, rows ++ rows', ?_, fun u c => ?_⟩
    · rw [hlog', hlog, List.append_assoc]
    · rw [hbalance', hbalance, movedBy_append]
      omega
  · exact ⟨Good.initial hnonneg, [], by simp [System.initial], by simp [System.initial, movedBy]⟩

/-- One step keeps the chains exactly if it commits no old balance. -/
theorem chained_step (hbody : ∀ call, Ledgered (body call))
    (h : Good ledgerProtocol (fun _ _ _ => True) s) (hchain : LedgerChained s.store)
    (hstep : ReadCommitted.step body s e = some s') : FreshZeros s e ↔ LedgerChained s'.store := by
  have hstore := step_store hstep
  cases hcommits : s.commits e with
  | none =>
    have hsame : s'.store = s.store := by simpa [hcommits] using hstore
    rw [hsame]
    refine ⟨fun _ => hchain, fun _ p hp => ?_⟩
    rw [hcommits] at hp
    cases hp
  | some p =>
    have hview : s'.store = p.view s.store := by simpa [hcommits] using hstore
    obtain ⟨rows, hlog, hbalance, hexact⟩ := ledger_step hbody h hstep
    obtain rfl : p.log = rows := by simpa [hview] using hlog
    have hfresh : FreshZeros s e ↔ Exact (balanceOf s.store) (fun r => r.delta = 0) p.log := by
      simp [FreshZeros, hcommits]
    have hall : Exact (balanceOf s.store) (fun r => r.delta = 0) p.log ↔
        Exact (balanceOf s.store) (fun _ => True) p.log := by
      constructor
      · exact fun hzero => hzero.and hexact fun r => em _
      · exact fun htrue before r after heq _ => htrue before r after heq trivial
    rw [hfresh, hall, ← chained_append hchain]
    simp [LedgerChained, hlog, hbalance]

theorem staysChained_iff (hbody : ∀ call, Ledgered (body call)) {es : List (Event Env χ)}
    (h : Good ledgerProtocol (fun _ _ _ => True) s) (hchain : LedgerChained s.store) :
    Along (ReadCommitted.step body) FreshZeros s es ↔
      Along (ReadCommitted.step body) (StaysChained body) s es := by
  induction es generalizing s with
  | nil => exact Iff.rfl
  | cons e es ih =>
    cases hstep : ReadCommitted.step body s e with
    | none =>
      have hcommits := commits_of_step_none hstep
      simp [Along, StaysChained, FreshZeros, hstep, hcommits]
    | some =>
      have hgood := Ledgered.good hbody h hstep
      have hiff := chained_step hbody h hchain hstep
      simp only [Along, StaysChained, hstep, Option.some.injEq, forall_eq']
      rw [hiff]
      exact and_congr_right fun hchain' => ih hgood hchain'

/-- Every run of transactions that move balances by `applyBalanceDelta`, from
balances and chains in order. -/
theorem ledger_chained_iff (hbody : ∀ call, Ledgered (body call)) {store : Tables}
    (hnonneg : ∀ u c, 0 ≤ balanceOf store u c) (hchain : LedgerChained store)
    (es : List (Event Env χ)) :
    (∀ s', Lib.run (ReadCommitted.step body) (System.initial store) es = some s' →
      ∀ u c, 0 ≤ balanceOf s'.store u c) ∧
    (Along (ReadCommitted.step body) FreshZeros (System.initial store) es ↔
      Along (ReadCommitted.step body) (StaysChained body) (System.initial store) es) ∧
    ∀ userId delta info p s, anyCommits.Safe (MovementEnds userId delta info p)
      (applyBalanceDelta userId delta info).attempt p s := by
  have hinit : Good ledgerProtocol (fun _ _ _ => True)
      (System.initial store : System Row BalanceLedger Env TxError α χ) := Good.initial hnonneg
  refine ⟨fun s' hrun => ?_, staysChained_iff hbody hinit hchain, safe_movementEnds⟩
  have hgood := run_induct (P := Good ledgerProtocol fun _ _ _ => True)
    (fun s e s' _ h hstep => Ledgered.good hbody h hstep) hinit (along_true _ _) hrun
  exact hgood.inv

end Chain

/-! ### A movement of nothing, overtaken -/

/-- One movement in a transaction. -/
def moveBy (call : UserId × Int × DeltaMeta) : SessionProg Int :=
  Prog.transaction (applyBalanceDelta call.1 call.2.1 call.2.2)

theorem ledgered_moveBy (call : UserId × Int × DeltaMeta) : Ledgered (moveBy call) :=
  .transaction (.balance call.1 call.2.1 call.2.2)

private def sampleMeta : DeltaMeta := { reason := "refund", refType := "CoinflipGame", refId := none }

/-- One user, with a balance of 100. -/
private def sampleStore : Tables := usersOnly fun
  | 0 => some
      { username := none, walletAddress := "", banned := false, fundedAt := none
        referredById := none, signupIpHash := none
        balance := fun c => if c = .jeton then 100 else 0
        totalWagered := 0, totalWon := 0, totalLost := 0, biggestWin := 0, gamesPlayed := 0 }
  | _ => none

private theorem sampleStore_nonneg (u : UserId) (c : Currency) : 0 ≤ balanceOf sampleStore u c := by
  match u with
  | 0 => cases c <;> decide
  | u + 1 => exact Int.le_refl 0

private theorem sampleStore_chained : LedgerChained sampleStore := fun _ _ => chained_nil

/-- A stake is taken. -/
private def staked : List (Event Env (UserId × Int × DeltaMeta)) :=
  [.start 2 (0, -10, sampleMeta), .run 2 {}, .run 2 {}, .run 2 {}, .run 2 {}]

theorem stake_keeps_balances : ∃ s',
    Lib.run (ReadCommitted.step moveBy) (System.initial sampleStore) staked = some s' ∧
    (∀ u c, 0 ≤ balanceOf s'.store u c) ∧
    Along (ReadCommitted.step moveBy) (StaysChained moveBy) (System.initial sampleStore) staked := by
  have hrun : (Lib.run (ReadCommitted.step moveBy) (System.initial sampleStore) staked).isSome = true := by
    decide +kernel
  obtain ⟨s', hs'⟩ := Option.isSome_iff_exists.mp hrun
  obtain ⟨hkept, hchained, -⟩ :=
    ledger_chained_iff ledgered_moveBy sampleStore_nonneg sampleStore_chained staked
  have hmoved : Along (ReadCommitted.step moveBy)
      (fun s e => ∀ p ∈ s.commits e, ∀ r ∈ p.log, r.delta ≠ 0) (System.initial sampleStore) staked := by
    decide +kernel
  refine ⟨s', hs', hkept s' hs', hchained.mp (hmoved.mono ?_)⟩
  rintro s e hne p hp before r after hlog hzero
  exact absurd hzero (hne p hp r (by simp [hlog]))

/-- A refund of nothing reads the balance; before it is committed, a stake of
10 is. -/
private def overtaken : List (Event Env (UserId × Int × DeltaMeta)) :=
  [.start 1 (0, 0, sampleMeta), .run 1 {}, .start 2 (0, -10, sampleMeta), .run 2 {}, .run 2 {},
    .run 2 {}, .run 2 {}, .run 1 {}, .run 1 {}]

theorem overtaken_refund_breaks_chain : ∃ es s',
    Lib.run (ReadCommitted.step moveBy) (System.initial sampleStore) es = some s' ∧
    ¬ LedgerChained s'.store := by
  have hrun : (Lib.run (ReadCommitted.step moveBy) (System.initial sampleStore) overtaken).any
      (fun s => decide (((rowsOf 0 .jeton s.store.log).getLast?.map (·.balanceAfter)) = some 100 ∧
        balanceOf s.store 0 .jeton = 90)) = true := by
    decide +kernel
  obtain ⟨s', hs', hlast⟩ := (Option.any_eq_true _ _).mp hrun
  refine ⟨overtaken, s', hs', fun hchain => ?_⟩
  simp only [decide_eq_true_eq, Option.map_eq_some_iff] at hlast
  obtain ⟨⟨r, hr, _⟩, _⟩ := hlast
  have hsame := (hchain 0 .jeton).last r hr
  omega

end Scadium.Prisma.Sessions
