/-
Scadium.Custody.RetryHeld — which held deposits the retry scans attempt.

A scan takes the oldest `HOLD_RETRY_BATCH` held deposits. The held deposits
are a queue: in every run of the system they keep their order, and a new
one comes last (`run_held`). So a deposit that waits for the scans is
attempted by one of them exactly if fewer than a batch of those before it
stay blocked (`held_retried_iff`).
-/
import Scadium.Custody.DepositTheorems
import Scadium.Lib.Batches

namespace Scadium.Custody

open Scadium.Lib Scadium.Lib.Batches Scadium.Prisma Scadium.Prisma.Committed

/-! ## The queue -/

def isHeld (row : CustodyTransfer) : Bool := row.kind = .deposit ∧ row.status = .held

/-- All held deposits, oldest first. -/
def CustodyDb.heldIds (s : CustodyDb) : List TransferId :=
  (s.transfers.entries.filter fun p => isHeld p.2).map Prod.fst

/-- Held deposits keep their order, rows stay, and new ones come last. -/
structure HeldEvolves (s s' : CustodyDb) : Prop where
  queue : ∃ (keep : TransferId → Bool) (new : List TransferId),
    s'.heldIds = s.heldIds.filter keep ++ new ∧ ∀ id ∈ new, s.transfers.get id = none
  rows : ∀ id, s'.transfers.get id = none → s.transfers.get id = none

section Queue

variable {s s' s'' : CustodyDb} {id : TransferId} {row old : CustodyTransfer}

theorem heldEvolves_of_eq (h : s'.transfers = s.transfers) : HeldEvolves s s' where
  queue := ⟨fun _ => true, [], by simp [CustodyDb.heldIds, h]⟩
  rows id hid := by rwa [h] at hid

theorem HeldEvolves.trans (h : HeldEvolves s s') (h' : HeldEvolves s' s'') : HeldEvolves s s'' where
  queue := by
    obtain ⟨keep, new, hq, hnew⟩ := h.queue
    obtain ⟨keep', new', hq', hnew'⟩ := h'.queue
    refine ⟨fun id => keep id && keep' id, new.filter keep' ++ new', ?_, ?_⟩
    · simp [hq', hq, List.filter_filter, Bool.and_comm]
    · intro id hid
      rcases List.mem_append.mp hid with hid | hid
      · exact hnew id (List.mem_filter.mp hid).1
      · exact h.rows id (hnew' id hid)
  rows id hid := h.rows id (h'.rows id hid)

theorem mem_heldIds (h : id ∈ s.heldIds) :
    ∃ row, s.transfers.get id = some row ∧ isHeld row = true := by
  obtain ⟨p, hp, rfl⟩ := List.mem_map.mp h
  obtain ⟨hmem, hheld⟩ := List.mem_filter.mp hp
  exact ⟨p.2, s.transfers.get_eq_some.mpr hmem, hheld⟩

theorem HeldEvolves.evolves (h : HeldEvolves s s') : Evolves s.heldIds s'.heldIds := by
  obtain ⟨keep, new, hq, hnew⟩ := h.queue
  refine ⟨keep, new, hq, fun id hid hheld => ?_⟩
  obtain ⟨_, hrow, -⟩ := mem_heldIds hheld
  rw [hnew id hid] at hrow
  cases hrow

/-! ### Writes of rows -/

private def heldKeys (l : List (TransferId × CustodyTransfer)) : List TransferId :=
  (l.filter fun p => isHeld p.2).map Prod.fst

theorem heldKeys_replace {l : List (TransferId × CustodyTransfer)} (hnodup : (l.map Prod.fst).Nodup)
    (hold : Table.get.lookup id l = some old) (himp : isHeld row = true → isHeld old = true) :
    heldKeys (insertWith (fun _ => row) id l) =
      (heldKeys l).filter fun j => j ≠ id || isHeld row := by
  induction l with
  | nil => simp [Table.get.lookup] at hold
  | cons p l ih =>
    obtain ⟨i, c⟩ := p
    obtain ⟨hi, hnodup⟩ := List.nodup_cons.mp hnodup
    by_cases hid : i = id
    · subst hid
      obtain rfl : c = old := by simpa [Table.get.lookup] using hold
      have hrest : (heldKeys l).filter (fun j => j ≠ i || isHeld row) = heldKeys l := by
        refine List.filter_eq_self.mpr fun j hj => ?_
        have hne : j ≠ i := by
          rintro rfl
          obtain ⟨p, hp, rfl⟩ := List.mem_map.mp hj
          exact hi (List.mem_map.mpr ⟨p, (List.mem_filter.mp hp).1, rfl⟩)
        simp [hne]
      cases hrow : isHeld row with
      | true => simp [heldKeys, insertWith, hrow, himp hrow]
      | false =>
        rw [hrow] at hrest
        cases hcheld : isHeld c with
        | true => simpa [heldKeys, insertWith, hrow, hcheld] using hrest.symm
        | false => simpa [heldKeys, insertWith, hrow, hcheld] using hrest.symm
    · have hlookup : Table.get.lookup id l = some old := by simpa [Table.get.lookup, hid] using hold
      have hrest := ih hnodup hlookup
      cases hcheld : isHeld c with
      | true => simpa [heldKeys, insertWith, hid, hcheld] using hrest
      | false => simpa [heldKeys, insertWith, hid, hcheld] using hrest

theorem heldKeys_append {l : List (TransferId × CustodyTransfer)}
    (hnone : Table.get.lookup id l = none) (row : CustodyTransfer) :
    heldKeys (insertWith (fun _ => row) id l) = heldKeys l ++ if isHeld row then [id] else [] := by
  induction l with
  | nil => cases hrow : isHeld row <;> simp [heldKeys, insertWith, hrow]
  | cons p l ih =>
    obtain ⟨i, c⟩ := p
    by_cases hid : i = id
    · simp [Table.get.lookup, hid] at hnone
    · have hlookup : Table.get.lookup id l = none := by simpa [Table.get.lookup, hid] using hnone
      have hrest := ih hlookup
      cases hcheld : isHeld c with
      | true => simpa [heldKeys, insertWith, hid, hcheld] using hrest
      | false => simpa [heldKeys, insertWith, hid, hcheld] using hrest

/-- A row is written: it was held before, or is not now, or is new. -/
theorem heldEvolves_set (hset : s'.transfers = s.transfers.set id row)
    (hheld : ∀ old, s.transfers.get id = some old → isHeld row = true → isHeld old = true) :
    HeldEvolves s s' where
  queue := by
    cases hget : s.transfers.get id with
    | some old =>
      refine ⟨fun j => j ≠ id || isHeld row, [], ?_, by simp⟩
      have hkeys := heldKeys_replace s.transfers.nodup hget (hheld old hget)
      simpa [CustodyDb.heldIds, heldKeys, hset, Table.set] using hkeys
    | none =>
      refine ⟨fun _ => true, if isHeld row then [id] else [], ?_, ?_⟩
      · have hkeys := heldKeys_append hget row
        simpa [CustodyDb.heldIds, heldKeys, hset, Table.set] using hkeys
      · intro j hj
        split at hj
        · rw [List.mem_singleton.mp hj, hget]
        · cases hj
  rows j hj := by
    rw [hset] at hj
    by_cases hid : j = id
    · subst hid
      rw [Table.get_set_self] at hj
      cases hj
    · rwa [Table.get_set_ne _ hid] at hj

theorem held_afterCredit (s : CustodyDb) (env : Env) (id : TransferId) :
    HeldEvolves s (s.afterCredit env id) := by
  rcases s.afterCredit_cases env id with heq | ⟨_, hrow, _, ⟨u, -, hpays⟩ | ⟨_, u, heq, -⟩⟩
  · rw [heq]
    exact heldEvolves_of_eq rfl
  · refine heldEvolves_set hpays.transfers fun old _ hheld => ?_
    simp [isHeld] at hheld
  · rw [heq]
    refine heldEvolves_set rfl fun old hold hheld => ?_
    rw [hrow] at hold
    cases hold
    simpa [isHeld] using hheld

end Queue

/-! ## Runs -/

section Runs

variable {chain : Signature → Option ChainTx} {treasury : Address}
variable {s s' : CustodySystem} {act : Act} {acts : List Act}

theorem held_callStep (s : CustodyDb) (env : Env) (c : Call) :
    HeldEvolves s (c.step chain treasury s env).1 := by
  cases c with
  | create =>
    simp only [Call.step]
    split
    · exact heldEvolves_of_eq rfl
    · split
      · exact heldEvolves_of_eq rfl
      · split
        · exact heldEvolves_of_eq rfl
        · rename_i hnew
          refine heldEvolves_set rfl fun old hold _ => ?_
          simp [hold] at hnew
  | credit id => exact held_afterCredit s env id
  | retry ids =>
    cases ids with
    | nil => exact heldEvolves_of_eq rfl
    | cons id => exact held_afterCredit s env id
  | confirm | confirmFetch | findConflict | scanFetch =>
    simp only [Call.step]
    split <;> exact heldEvolves_of_eq rfl
  | scanNext rest =>
    cases rest with
    | nil => exact heldEvolves_of_eq rfl
    | cons =>
      simp only [Call.step]
      split <;> exact heldEvolves_of_eq rfl
  | readPrimary | readLinked | scan | scanList | scanSave | retryHeld | done =>
    exact heldEvolves_of_eq rfl

theorem held_withdrawal {s : CustodyDb} {id : TransferId} {row : CustodyTransfer}
    (h : s.mayWrite id row = true) :
    HeldEvolves s { s with transfers := s.transfers.set id row } := by
  refine heldEvolves_set rfl fun old _ hheld => ?_
  simp only [CustodyDb.mayWrite, Bool.and_eq_true, decide_eq_true_eq] at h
  simp [isHeld, h.1.1] at hheld

theorem held_step (h : step chain treasury s act = some s') : HeldEvolves s.tables s'.tables := by
  cases act with
  | run =>
    simp only [step] at h
    split at h
    · cases h
      exact held_callStep _ _ _
    · cases h
  | start | other =>
    simp only [step] at h
    split at h
    · cases h
      exact heldEvolves_of_eq rfl
    · cases h
  | kill | relink =>
    cases h
    exact heldEvolves_of_eq rfl
  | withdrawal =>
    simp only [step] at h
    split at h
    · rename_i hmay
      cases h
      exact held_withdrawal hmay
    · cases h

/-- In a run, the held deposits keep their order. -/
theorem run_held (h : run (step chain treasury) s acts = some s') :
    HeldEvolves s.tables s'.tables :=
  run_invariant (P := fun t => HeldEvolves s.tables t.tables)
    (fun _ _ _ hs hstep => hs.trans (held_step hstep)) (heldEvolves_of_eq rfl) h

end Runs

/-! ## Scans -/

section Scans

variable (chain : Signature → Option ChainTx) (treasury : Address)

/-- What a call of `retryHeld` attempts in a step. -/
def attempt (call : CallId) (s : CustodySystem) : Act → List TransferId
  | .run c _ =>
      if c = call then
        match s.calls.get call with
        | some (.retry (id :: _)) => [id]
        | _ => []
      else []
  | _ => []

/-- And in a run. -/
def attempts (call : CallId) : CustodySystem → List Act → List TransferId
  | _, [] => []
  | s, act :: acts =>
      attempt call s act ++ match step chain treasury s act with
        | some s' => attempts call s' acts
        | none => []

/-- A retry scan, from the read of the held deposits to its end and on to
`t'`. Other calls run, and are killed, between its steps. -/
structure Scan (t t' : CustodySystem) where
  call : CallId
  env : Env
  acts : List Act
  rest : List Act
  ended : CustodySystem
  begins : t.calls.get call = some .retryHeld
  runs : run (step chain treasury) t (.run call env :: acts) = some ended
  alive : Act.kill call ∉ acts
  ends : ended.calls.get call = some .done
  next : run (step chain treasury) ended rest = some t'

/-- What the scan attempts. -/
def Scan.attempted {t t' : CustodySystem} (scan : Scan chain treasury t t') : List TransferId :=
  attempts chain treasury scan.call t (.run scan.call scan.env :: scan.acts)

variable {chain treasury} {s s' : CustodySystem} {act : Act} {acts : List Act} {call : CallId}

/-- A call waits while others act. -/
theorem calls_kept {c : Call} (hget : s.calls.get call = some c)
    (hother : ∀ env, act ≠ .run call env) (halive : act ≠ .kill call)
    (h : step chain treasury s act = some s') : s'.calls.get call = some c := by
  cases act with
  | run c' env =>
    have hne : call ≠ c' := by
      rintro rfl
      exact hother env rfl
    simp only [step] at h
    split at h
    · cases h
      rw [Table.get_set_ne _ hne, hget]
    · cases h
  | start c' =>
    simp only [step] at h
    split at h
    · rename_i hfree
      cases h
      have hne : call ≠ c' := by
        rintro rfl
        rw [hget] at hfree
        cases hfree
      rw [Table.get_set_ne _ hne, hget]
    · cases h
  | kill c' =>
    have hne : call ≠ c' := by
      rintro rfl
      exact halive rfl
    cases h
    rw [Table.get_erase_ne _ hne, hget]
  | relink =>
    cases h
    exact hget
  | other | withdrawal =>
    simp only [step] at h
    split at h
    · cases h
      exact hget
    · cases h

theorem attempt_of_ne (hother : ∀ env, act ≠ .run call env) : attempt call s act = [] := by
  cases act with
  | run c env =>
    have hne : c ≠ call := by
      rintro rfl
      exact hother env rfl
    simp [attempt, hne]
  | _ => rfl

theorem attempts_done (hget : s.calls.get call = some .done) (halive : Act.kill call ∉ acts) :
    attempts chain treasury call s acts = [] := by
  induction acts generalizing s with
  | nil => rfl
  | cons act acts ih =>
    obtain ⟨hact, hacts⟩ : Act.kill call ≠ act ∧ Act.kill call ∉ acts := by simpa using halive
    have hnone : attempt call s act = [] := by
      cases act with
      | run => simp [attempt, hget]
      | _ => rfl
    simp only [attempts, hnone, List.nil_append]
    split
    · rename_i s' hstep
      refine ih ?_ hacts
      by_cases hown : ∃ env, act = .run call env
      · obtain ⟨env, rfl⟩ := hown
        simp only [step, hget] at hstep
        cases hstep
        exact Table.get_set_self _
      · exact calls_kept hget (fun env heq => hown ⟨env, heq⟩) (Ne.symm hact) hstep
    · rfl

/-- A scan that ends has attempted what it read. -/
theorem attempts_retry {ids : List TransferId} (hget : s.calls.get call = some (.retry ids))
    (halive : Act.kill call ∉ acts) (hrun : run (step chain treasury) s acts = some s')
    (hend : s'.calls.get call = some .done) : attempts chain treasury call s acts = ids := by
  induction acts generalizing s ids with
  | nil =>
    cases hrun
    rw [hget] at hend
    cases hend
  | cons act acts ih =>
    obtain ⟨hact, hacts⟩ : Act.kill call ≠ act ∧ Act.kill call ∉ acts := by simpa using halive
    obtain ⟨_, hstep, hrest⟩ := run_cons_eq_some.mp hrun
    simp only [attempts, hstep]
    by_cases hown : ∃ env, act = .run call env
    · obtain ⟨env, rfl⟩ := hown
      simp only [step, hget] at hstep
      cases hstep
      cases ids with
      | nil =>
        rw [attempts_done (Table.get_set_self _) hacts]
        simp [attempt, hget]
      | cons =>
        rw [ih (Table.get_set_self _) hacts hrest]
        simp [attempt, hget]
    · have hother : ∀ env, act ≠ .run call env := fun env heq => hown ⟨env, heq⟩
      rw [attempt_of_ne hother, List.nil_append]
      exact ih (calls_kept hget hother (Ne.symm hact) hstep) hacts hrest

/-- A scan attempts the oldest held deposits, and no others. -/
theorem Scan.attempted_eq {t t' : CustodySystem} (scan : Scan chain treasury t t') :
    scan.attempted = t.tables.findHeld := by
  obtain ⟨call, env, _, _, _, begins, runs, alive, ends, _⟩ := scan
  obtain ⟨_, hstep, hrun⟩ := run_cons_eq_some.mp runs
  simp only [attempted, attempts, hstep]
  have hnone : attempt call t (.run call env) = [] := by simp [attempt, begins]
  rw [hnone, List.nil_append]
  simp only [step, begins] at hstep
  cases hstep
  exact attempts_retry (Table.get_set_self _) alive hrun ends

theorem Scan.held {t t' : CustodySystem} (scan : Scan chain treasury t t') :
    HeldEvolves t.tables t'.tables := (run_held scan.runs).trans (run_held scan.next)

/-- Scans one after the other, with anything else in between. A held deposit
is left to them until one attempts it; of those before it, some stay blocked,
and the others are no longer held once they are attempted. Then one of the
scans attempts it exactly if fewer than a batch of those before it stay
blocked. -/
theorem held_retried_iff {t : Nat → CustodySystem}
    (scan : ∀ n, Scan chain treasury (t n) (t (n + 1))) {id : TransferId}
    (hwaits : ∀ n, (∀ m < n, id ∉ (scan m).attempted) → id ∈ (t n).tables.heldIds)
    {blocked : TransferId → Bool}
    (hblocked : ∀ j ∈ ahead id (t 0).tables.heldIds, blocked j = true → ∀ n,
      j ∈ (t n).tables.heldIds)
    (hcleared : ∀ j ∈ ahead id (t 0).tables.heldIds, blocked j = false → ∀ n,
      j ∈ (scan n).attempted → j ∉ (t (n + 1)).tables.heldIds) :
    (∃ n, id ∈ (scan n).attempted) ↔
      (ahead id (t 0).tables.heldIds).countP blocked < HOLD_RETRY_BATCH := by
  have hattempted : ∀ n, (scan n).attempted = (t n).tables.heldIds.take HOLD_RETRY_BATCH :=
    fun n => (scan n).attempted_eq
  simp only [hattempted] at hwaits hcleared ⊢
  exact served_iff (fun n => (scan n).held.evolves) hwaits hblocked hcleared

end Scans

/-! ## Scans on their own -/

namespace Alone

/-- One call, and nothing else. -/
private def waiting (s : CustodyDb) (call : Call) : CustodySystem := ⟨s, Table.empty.set 0 call⟩

private def retryAll (env : Env) (s : CustodyDb) (ids : List TransferId) : CustodyDb :=
  ids.foldl (fun s id => s.afterCredit env id) s

private def nowhere : Signature → Option ChainTx := fun _ => none

private theorem step_retry (env : Env) (s : CustodyDb) (id : TransferId) (ids : List TransferId) :
    step nowhere "treasury" (waiting s (.retry (id :: ids))) (.run 0 env) =
      some (waiting (s.afterCredit env id) (.retry ids)) := rfl

private theorem run_retries (env : Env) (ids : List TransferId) : ∀ s,
    run (step nowhere "treasury") (waiting s (.retry ids))
      (List.replicate ids.length (.run 0 env) ++ [.run 0 env]) =
      some (waiting (retryAll env s ids) .done) := by
  induction ids with
  | nil => exact fun s => rfl
  | cons id ids ih =>
    intro s
    exact run_cons_eq_some.mpr ⟨_, step_retry env s id ids, ih _⟩

/-- A scan, and the start of the next one. -/
private def scan (env : Env) (s : CustodyDb) : Scan nowhere "treasury" (waiting s .retryHeld)
    (waiting (retryAll env s s.findHeld) .retryHeld) where
  call := 0
  env := env
  acts := List.replicate s.findHeld.length (.run 0 env) ++ [.run 0 env]
  rest := [.kill 0, .start 0 .retryHeld]
  ended := waiting (retryAll env s s.findHeld) .done
  begins := rfl
  runs := run_cons_eq_some.mpr ⟨waiting s (.retry s.findHeld), rfl, run_retries env s.findHeld s⟩
  alive := by simp
  ends := rfl
  next := rfl

/-- The tables after `n` scans. -/
private def after (env : Env) (s : CustodyDb) : Nat → CustodyDb
  | 0 => s
  | n + 1 => retryAll env (after env s n) (after env s n).findHeld

/-- Signed by several accounts: resolved by hand only. -/
private def ambiguous : CustodyTransfer where
  kind := .deposit
  status := .held
  userId := none
  wallet := ""
  amountLamports := 10
  txSignature := none
  slot := none
  lastValidBlockHeight := none
  attempts := 0
  heldReason := some .ambiguous_sender
  error := none

/-- Held for a limit that is no longer reached. -/
private def cleared : CustodyTransfer :=
  { ambiguous with userId := some 7, heldReason := some .deposit_limit }

private theorem closed_stays {s : CustodyDb} {id : TransferId} {row : CustodyTransfer} (env : Env)
    (hclosed : ¬ row.Open) (h : s.transfers.get id = some row) : s.afterCredit env id = s := by
  have hout : row.status ≠ .held ∨ row.heldReason = some .ambiguous_sender := by
    rw [CustodyTransfer.Open, not_and_or, not_not] at hclosed
    exact hclosed
  have hcredit : s.credit env id = .ok s := by
    simp only [CustodyDb.credit, h, orThrow]
    exact if_pos hout
  simp [CustodyDb.afterCredit, hcredit]

private theorem ambiguous_closed : ¬ ambiguous.Open := fun h => h.2 rfl

private theorem ambiguous_stay {s : CustodyDb} (env : Env) {ids : List TransferId}
    (h : ∀ id ∈ ids, s.transfers.get id = some ambiguous) : retryAll env s ids = s := by
  induction ids with
  | nil => rfl
  | cons id ids ih =>
    simp only [retryAll, List.foldl_cons,
      closed_stays env ambiguous_closed (h id (List.mem_cons_self ..))]
    exact ih fun j hj => h j (List.mem_cons_of_mem _ hj)

/-- Rows with ids from 0 on. -/
private def rows (l : List CustodyTransfer) : CustodyDb where
  db := Sample.db
  primary := .empty
  linked := .empty
  transfers :=
    { entries := (List.range l.length).zip l
      nodup := by
        rw [List.map_fst_zip (by simp)]
        exact List.nodup_range }
  cursor := none

/-- A batch of rows that stay, and one that does not have to. -/
private def crowded : CustodyDb := rows (List.replicate 100 ambiguous ++ [cleared])

private theorem crowded_held : crowded.findHeld = List.range 100 := by decide +kernel

private theorem crowded_ambiguous : ∀ id ∈ List.range 100,
    crowded.transfers.get id = some ambiguous := by
  decide +kernel

private theorem after_crowded (n : Nat) : after Sample.answers crowded n = crowded := by
  induction n with
  | zero => rfl
  | succ n ih =>
    simp only [after, ih, crowded_held]
    exact ambiguous_stay _ crowded_ambiguous

private theorem closed_kept {s : CustodyDb} {id : TransferId} {row : CustodyTransfer} (env : Env)
    (hclosed : ¬ row.Open) (j : TransferId) (h : s.transfers.get id = some row) :
    (s.afterCredit env j).transfers.get id = some row := by
  by_cases hj : id = j
  · subst hj
    rw [closed_stays env hclosed h, h]
  · rcases s.afterCredit_cases env j with heq | ⟨_, -, -, ⟨u, -, hpays⟩ | ⟨_, u, heq, -⟩⟩
    · rw [heq, h]
    · rw [hpays.transfers, Table.get_set_ne _ hj, h]
    · rw [heq, CustodyDb.hold, Table.get_set_ne _ hj, h]

/-- A row that no retry touches is the same after any number of scans more. -/
private theorem closed_after {s : CustodyDb} {id : TransferId} {row : CustodyTransfer} {m : Nat}
    (env : Env) (hclosed : ¬ row.Open) (h : (after env s m).transfers.get id = some row) (n : Nat) :
    (after env s (m + n)).transfers.get id = some row := by
  induction n with
  | zero => exact h
  | succ n ih =>
    simp only [after, retryAll]
    generalize (after env s (m + n)).findHeld = ids
    generalize after env s (m + n) = s at ih
    induction ids generalizing s with
    | nil => exact ih
    | cons j ids ih' => exact ih' _ (closed_kept env hclosed j ih)

/-- A row that stays, one that is credited, and one behind them. -/
private def few : CustodyDb := rows [ambiguous, cleared, cleared]

private def states (s : CustodyDb) (n : Nat) : CustodySystem :=
  waiting (after Sample.answers s n) .retryHeld

private def scans (s : CustodyDb) (n : Nat) :
    Scan nowhere "treasury" (states s n) (states s (n + 1)) :=
  scan Sample.answers (after Sample.answers s n)

private theorem scans_attempted (s : CustodyDb) (n : Nat) :
    (scans s n).attempted = (after Sample.answers s n).findHeld := Scan.attempted_eq _

end Alone

open Alone

/-- A hundred deposits stay held; the one behind them would be credited, and
no scan ever attempts it. -/
theorem cleared_deposit_starves : ∃ (t : Nat → CustodySystem)
    (scan : ∀ n, Scan nowhere "treasury" (t n) (t (n + 1))),
    (∀ n, 100 ∈ (t n).tables.heldIds ∧
      ((t n).tables.afterCredit Sample.answers 100).transfers.get 100 =
        some { cleared with status := .credited, heldReason := none }) ∧
    ∀ n, 100 ∉ (scan n).attempted := by
  refine ⟨states crowded, scans crowded, fun n => ?_, fun n => ?_⟩
  · simp only [states, waiting, after_crowded]
    decide +kernel
  · rw [scans_attempted, after_crowded, crowded_held]
    simp

theorem cleared_deposit_attempted : ∃ (t : Nat → CustodySystem)
    (scan : ∀ n, Scan nowhere "treasury" (t n) (t (n + 1))), ∃ n, 2 ∈ (scan n).attempted := by
  have hfirst : 2 ∈ (scans few 0).attempted := by
    rw [scans_attempted]
    decide +kernel
  have hahead : ahead 2 (states few 0).tables.heldIds = [0, 1] := by decide +kernel
  have hwaits : ∀ n, (∀ m < n, 2 ∉ (scans few m).attempted) → 2 ∈ (states few n).tables.heldIds := by
    intro n hn
    cases n with
    | zero => decide +kernel
    | succ n => exact absurd hfirst (hn 0 (Nat.succ_pos n))
  have hblocked : ∀ n, 0 ∈ (states few n).tables.heldIds := by
    intro n
    have hrow : (after Sample.answers few 0).transfers.get 0 = some ambiguous := rfl
    have hkept := closed_after Sample.answers ambiguous_closed hrow n
    rw [Nat.zero_add] at hkept
    exact List.mem_map.mpr ⟨(0, ambiguous),
      List.mem_filter.mpr ⟨(Table.get_eq_some _).mp hkept, rfl⟩, rfl⟩
  -- the first scan credits it
  have hcleared : ∀ n, 1 ∉ (states few (n + 1)).tables.heldIds := by
    intro n hmem
    have hrow : (after Sample.answers few 1).transfers.get 1 =
        some { cleared with status := .credited, heldReason := none } := by decide +kernel
    have hkept := closed_after Sample.answers (fun h => by cases h.1) hrow n
    obtain ⟨⟨_, row⟩, hmem, rfl⟩ := List.mem_map.mp hmem
    obtain ⟨hentry, hheld⟩ := List.mem_filter.mp hmem
    rw [Nat.add_comm] at hkept
    cases hkept.symm.trans ((Table.get_eq_some _).mpr hentry)
    cases hheld
  have hiff := @held_retried_iff nowhere "treasury" (states few) (scans few) 2 hwaits (fun j => j = 0)
    (fun j hj hb => by simp at hb; exact hb ▸ hblocked)
    (fun j hj hclear n _ => by
      simp only [hahead, List.mem_cons, List.not_mem_nil, or_false] at hj
      rcases hj with rfl | rfl
      · simp at hclear
      · exact hcleared n)
  refine ⟨states few, scans few, hiff.mpr ?_⟩
  rw [hahead]
  decide

end Scadium.Custody
