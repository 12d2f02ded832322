/-
Scadium.Custody.NothingSkipped — what is listed is recorded.

A scan that meets only transactions it can fetch walks the whole history,
whatever its page is, and then everything is handled. With the invariant of
`Scadium.Custody.ScanTheorems` that is the claim on the scan
(`scan_skips_nothing`).
-/
import Mathlib.Data.Fintype.EquivFin
import Scadium.Custody.ScanTheorems

namespace Scadium.Custody.Scan

open Scadium.Lib Scadium.Prisma

variable {chain : Signature → Option ChainTx} {treasury : Address} {signature : Signature}
  {env : Env} {rest : List (Signature × Nat)} {goal : List Signature} {t : Task} {s s' : System}
  {k : CallId} {act : Act}

/-- The act is a step of the scan `k`; the transaction it looks up is seen. -/
inductive OfScan (scanPage minDepositLamports : Nat) (k : CallId) : Act → Prop where
  | start : OfScan scanPage minDepositLamports k (.start k .scan scanPage)
  | run (env : Env) (visible : env.visible = true)
      (min : env.minDepositLamports = minDepositLamports) :
      OfScan scanPage minDepositLamports k (.run k env)

/-- The scan `k` alone leads to `Q`. -/
abbrev Scans (chain : Signature → Option ChainTx) (treasury : Address)
    (scanPage minDepositLamports : Nat) (k : CallId) (s : System) (Q : System → Prop) : Prop :=
  Leads (step chain treasury)
    (fun s act => Ok s act ∧ OfScan scanPage minDepositLamports k act) s Q

variable {scanPage minDepositLamports : Nat} {Q : System → Prop}

theorem Scans.inv (hinv : Inv chain treasury s)
    (h : Scans chain treasury scanPage minDepositLamports k s Q) :
    Scans chain treasury scanPage minDepositLamports k s fun s' => Inv chain treasury s' ∧ Q s' :=
  Leads.invariant (fun _ _ _ hok hinv hstep => hinv.step hok.1 hstep) hinv h

/-- The answers to a scan that sees what it looks up; a row gets the id `newId`. -/
def answers (newId : TransferId) (minDepositLamports : Nat) : Env :=
  ⟨true, [], newId, minDepositLamports, none, false, 0⟩

/-- One step of the scan. -/
theorem Scans.run (newId : TransferId) (ht : s.tasks.get k = some t)
    (hsteady : t.Steady s.tables (answers newId minDepositLamports))
    (h : ∀ s', s'.tasks.get k =
        some (t.step chain treasury s (answers newId minDepositLamports)).2 →
      s'.tables = (t.step chain treasury s (answers newId minDepositLamports)).1 →
      s'.history = s.history → Scans chain treasury scanPage minDepositLamports k s' Q) :
    Scans chain treasury scanPage minDepositLamports k s Q := by
  have hstep : Scan.step chain treasury s (.run k (answers newId minDepositLamports)) =
      some { s with
        tables := (t.step chain treasury s (answers newId minDepositLamports)).1
        tasks := s.tasks.set k (t.step chain treasury s (answers newId minDepositLamports)).2
        dust := t.ignored (answers newId minDepositLamports) ++ s.dust } := by
    simp only [Scan.step, ht]
  refine Leads.next ⟨?_, .run _ rfl rfl⟩ hstep (h _ (Table.get_set_self _) rfl rfl)
  intro t' ht'
  cases ht.symm.trans ht'
  exact hsteady

/-- A step that reads no page. -/
theorem Scans.next (newId : TransferId) (ht : s.tasks.get k = some t)
    (hlist : ∀ since, t.call ≠ .scanList since)
    (hsteady : t.Steady s.tables (answers newId minDepositLamports))
    (h : ∀ s', s'.tasks.get k = some { t.note s with
        call := (t.call.step chain treasury s.tables (answers newId minDepositLamports)).2 } →
      s'.tables = (t.call.step chain treasury s.tables (answers newId minDepositLamports)).1 →
      s'.history = s.history → Scans chain treasury scanPage minDepositLamports k s' Q) :
    Scans chain treasury scanPage minDepositLamports k s Q := by
  refine Scans.run newId ht hsteady ?_
  rw [Task.step_eq hlist]
  exact h

/-- The scan is at a call. -/
def Stands (k : CallId) (goal history : List Signature) (c : Call) (s : System) : Prop :=
  ∃ t, s.tasks.get k = some t ∧ t.call = c ∧ t.goal = goal ∧ s.history = history

variable {history : List Signature}

/-! ## One entry -/

theorem exists_fresh (t : Table TransferId CustodyTransfer) : ∃ id, t.get id = none := by
  obtain ⟨id, hid⟩ := Infinite.exists_notMem_finset (t.entries.map Prod.fst).toFinset
  refine ⟨id, Option.eq_none_iff_forall_ne_some.mpr ?_⟩
  intro row hrow
  apply hid
  have hmem := t.get_eq_some.mp hrow
  simpa using ⟨row, hmem⟩

theorem scans_save {slot : Nat} (h : Stands k goal history (.scanSave signature slot rest) s) :
    Scans chain treasury scanPage minDepositLamports k s
      (Stands k goal history (.scanNext rest)) := by
  obtain ⟨t, ht, hcall, hgoal, hhistory⟩ := h
  refine Scans.next 0 ht (by simp [hcall]) (by simp [Task.Steady, recording, hcall]) ?_
  intro s' ht' _ hhistory'
  apply Leads.here
  simp only [hcall, Task.note] at ht'
  exact ⟨_, ht', rfl, hgoal, hhistory'.trans hhistory⟩

/-- The write of `record`, of a wallet that stayed where it was. -/
theorem scans_create {tx : Inbound} {owners : List (UserId × Address)} {slot : Nat}
    (ht : s.tasks.get k = some t) (hcall : t.call = .create signature tx owners (.scan slot rest))
    (hstay : ¬ t.Promoted) :
    Scans chain treasury scanPage minDepositLamports k s
      (Stands k t.goal s.history (.scanSave signature slot rest)) := by
  obtain ⟨newId, hnew⟩ := exists_fresh s.tables.transfers
  refine Scans.next newId ht (by simp [hcall]) ?_ ?_
  · intro _ _ _ _
    exact hstay
  · intro s' ht' _ hhistory'
    simp only [hcall, Task.note] at ht'
    by_cases hconflict : (Call.create signature tx owners (.scan slot rest)).step chain treasury
        s.tables (answers newId minDepositLamports) =
          (s.tables, .findConflict signature (.scan slot rest))
    · rw [hconflict] at ht'
      refine Scans.next newId ht' (by simp) (by simp [Task.Steady, recording]) ?_
      intro s'' ht'' _ hhistory''
      apply Leads.here
      simp only [Task.note] at ht''
      refine ⟨_, ht'', ?_, rfl, hhistory''.trans hhistory'⟩
      simp only [Call.step]
      split <;> rfl
    · apply Leads.here
      refine ⟨_, ht', ?_, rfl, hhistory'⟩
      simp only [Call.step] at hconflict ⊢
      split
      · rfl
      · split
        case isTrue hnull hfound => simp [hnull, hfound] at hconflict
        case isFalse => simp [answers, hnew, recorded]

/-- The reads and the write of `record`, with nothing in between. -/
theorem scans_record {tx : Inbound} {slot : Nat}
    (h : Stands k goal history (.readPrimary signature tx (.scan slot rest)) s) :
    Scans chain treasury scanPage minDepositLamports k s
      (Stands k goal history (.scanSave signature slot rest)) := by
  obtain ⟨t, ht, hcall, rfl, rfl⟩ := h
  refine Scans.next 0 ht (by simp [hcall]) (by simp [Task.Steady, recording, hcall]) ?_
  intro s₁ ht₁ htables₁ hhistory₁
  simp only [hcall, Task.note, Call.step] at ht₁ htables₁
  refine Scans.next 0 ht₁ (by simp) (by simp [Task.Steady, recording]) ?_
  intro s₂ ht₂ htables₂ hhistory₂
  simp only [Task.note, Call.step, htables₁] at ht₂
  rw [← hhistory₁, ← hhistory₂]
  have hcreate := @scans_create chain treasury signature rest _ s₂ k scanPage minDepositLamports
    tx _ slot ht₂ rfl
  apply hcreate
  -- both reads saw the same tables
  rintro ⟨hfirst, hsecond⟩
  simp only at hfirst hsecond
  rw [hfirst] at hsecond
  cases hsecond

theorem scans_entry {slot : Nat} (hlanded : (chain signature).isSome)
    (h : Stands k goal history (.scanNext ((signature, slot) :: rest)) s) :
    Scans chain treasury scanPage minDepositLamports k s
      (Stands k goal history (.scanNext rest)) := by
  obtain ⟨t, ht, hcall, rfl, rfl⟩ := h
  refine Leads.trans (Q := Stands k t.goal s.history (.scanSave signature slot rest)) ?_
    fun _ hs => scans_save hs
  refine Scans.next 0 ht (by simp [hcall]) (by simp [Task.Steady, recording, hcall]) ?_
  intro s₁ ht₁ htables₁ hhistory₁
  simp only [hcall, Task.note, Call.step] at ht₁ htables₁
  cases hfound : (s.tables.findBySignature signature).isSome with
  | true =>
    rw [hfound] at ht₁
    exact Leads.here ⟨_, ht₁, rfl, rfl, hhistory₁⟩
  | false =>
    simp only [hfound, Bool.false_eq_true, if_false] at ht₁
    refine Scans.next 0 ht₁ (by simp) (by simp [Task.Steady, recording]) ?_
    intro s₂ ht₂ _ hhistory₂
    simp only [Task.note, Call.step] at ht₂
    obtain ⟨tx, htx⟩ := Option.isSome_iff_exists.mp hlanded
    have hseen : treasuryTx chain treasury (answers 0 minDepositLamports) signature =
        tx.classify treasury := by
      simp [treasuryTx, htx, answers]
    rw [hseen] at ht₂
    rw [← hhistory₁, ← hhistory₂]
    cases hclass : tx.classify treasury with
    | missing =>
      unfold ChainTx.classify at hclass
      split at hclass
      · cases hclass
      · split at hclass
        · cases hclass
        · split at hclass <;> cases hclass
    | inbound =>
      rw [hclass] at ht₂
      exact scans_record ⟨_, ht₂, rfl, rfl, rfl⟩
    | _ =>
      rw [hclass] at ht₂
      exact Leads.here ⟨_, ht₂, rfl, rfl, rfl⟩

theorem scans_entries (hlanded : ∀ p ∈ rest, (chain p.1).isSome)
    (h : Stands k goal history (.scanNext rest) s) :
    Scans chain treasury scanPage minDepositLamports k s
      (Stands k goal history (.scanNext [])) := by
  induction rest generalizing s with
  | nil => exact Leads.here h
  | cons p rest ih =>
    have hp := hlanded p (List.mem_cons_self ..)
    have hrest : ∀ q ∈ rest, (chain q.1).isSome :=
      fun q hq => hlanded q (List.mem_cons_of_mem _ hq)
    exact Leads.trans (scans_entry hp h) fun _ hs => ih hrest hs

/-! ## The whole history -/

theorem Task.readPage_cases (chain : Signature → Option ChainTx) (history : List Signature)
    (since : Option Signature) (hpage : 0 < t.scanPage) :
    (∃ rest, t.readPage chain history since = { t with call := .scanNext rest }) ∨
      ∃ init last out, pageOf history t.before since t.scanPage = init ++ [last] ∧
        t.readPage chain history since = { t with before := some last, out := out } := by
  unfold Task.readPage
  simp only
  split
  · exact .inl ⟨_, rfl⟩
  case isFalse hfull =>
    right
    cases hlast : (pageOf history t.before since t.scanPage).getLast? with
    | some last =>
      obtain ⟨init, hinit⟩ := List.getLast?_eq_some_iff.mp hlast
      exact ⟨init, last, _, hinit, rfl⟩
    | none =>
      rw [List.getLast?_eq_none_iff] at hlast
      rw [hlast, List.length_nil] at hfull
      exact absurd hpage hfull

/-- Page by page, to the cursor. -/
theorem scans_pages {since : Option Signature} (n : Nat) (hnodup : s.history.Nodup)
    (ht : s.tasks.get k = some t) (hcall : t.call = .scanList since) (hpage : 0 < t.scanPage)
    (hn : (olderThan s.history t.before).length < n) :
    Scans chain treasury scanPage minDepositLamports k s
      fun s' => ∃ rest, Stands k t.goal s.history (.scanNext rest) s' := by
  induction n generalizing s t with
  | zero => exact absurd hn (Nat.not_lt_zero _)
  | succ n ih =>
    refine Scans.run 0 ht (by simp [Task.Steady, recording, hcall]) ?_
    intro s₁ ht₁ _ hhistory₁
    have hstep : (t.step chain treasury s (answers 0 minDepositLamports)).2 =
        t.readPage chain s.history since := by
      simp only [Task.step, hcall]
    rw [hstep] at ht₁
    cases Task.readPage_cases chain s.history since hpage with
    | inl hshort =>
      obtain ⟨rest, hread⟩ := hshort
      rw [hread] at ht₁
      exact Leads.here ⟨rest, _, ht₁, rfl, rfl, hhistory₁⟩
    | inr hfull =>
      obtain ⟨_, last, _, hlast, hread⟩ := hfull
      rw [hread] at ht₁
      have hless := olderThan_last hnodup hlast
      have hn' : (olderThan s₁.history (some last)).length < n := by
        rw [hhistory₁]
        omega
      have hmore := ih (s := s₁) (hhistory₁ ▸ hnodup) ht₁ hcall hpage hn'
      rw [hhistory₁] at hmore
      exact hmore

/-- What a scan at the end of its loop has seen. -/
theorem Task.Sees.over {H : Signature → Prop} (h : t.Sees chain treasury history H)
    (hcall : t.call = .scanNext []) (hH : ∀ sig, (∀ tx, ¬ Told chain treasury sig tx) → H sig) :
    ∀ sig ∈ t.goal, H sig := by
  unfold Task.Sees at h
  simp only [hcall] at h
  obtain ⟨_, hold, _, seg, -, hrest, hgoal⟩ := h
  have herrs : ∀ sig ∈ seg, entry chain sig = none := by
    rw [eq_comm, List.reverse_eq_nil_iff] at hrest
    exact List.filterMap_eq_nil_iff.mp hrest
  intro sig hsig
  cases List.mem_append.mp (hgoal sig hsig) with
  | inl hmem => exact hH sig fun tx => entry_none (herrs sig hmem)
  | inr hmem => exact hold sig hmem

/-- What a scan has before it is listed. -/
theorem Task.Sees.landed {H : Signature → Prop} (h : t.Sees chain treasury history H)
    (hcall : t.call = .scanNext rest) : ∀ p ∈ rest, (chain p.1).isSome := by
  unfold Task.Sees at h
  simp only [hcall] at h
  obtain ⟨_, -, _, _, -, rfl, -⟩ := h
  intro p hp
  obtain ⟨_, -, hentry⟩ := List.mem_filterMap.mp (List.mem_reverse.mp hp)
  unfold entry at hentry
  obtain ⟨_, htx, hentry⟩ := Option.bind_eq_some_iff.mp hentry
  split at hentry
  · cases hentry
  · cases hentry
    simp [htx]

theorem handled_of_not_told (s : System) :
    ∀ sig, (∀ tx, ¬ Told chain treasury sig tx) → s.Handled chain treasury sig :=
  fun _ hno tx htold => absurd htold (hno tx)

/-- A scan that sees what it looks up leaves nothing of the history out. -/
theorem scan_completes (hinv : Inv chain treasury s) (hfree : s.tasks.get k = none)
    (hpage : 0 < scanPage) :
    Scans chain treasury scanPage minDepositLamports k s
      fun s' => ∀ sig ∈ s.history, s'.Handled chain treasury sig := by
  have hstart : Scan.step chain treasury s (.start k .scan scanPage) =
      some { s with tasks := s.tasks.set k (.new .scan scanPage) } := by
    simp only [Scan.step, hfree, Entry.call]
  have hok : Ok s (.start k .scan scanPage) := trivial
  have hstarted := hinv.step hok hstart
  refine Leads.next (e := .start k .scan scanPage) ⟨trivial, .start⟩ hstart ?_
  have hrun : Scans chain treasury scanPage minDepositLamports k
      { s with tasks := s.tasks.set k (.new .scan scanPage) }
      (fun s' => ∃ rest, Stands k s.history s.history (.scanNext rest) s') := by
    refine Scans.next 0 (Table.get_set_self _) (by simp [Task.new])
      (by simp [Task.Steady, recording, Task.new]) ?_
    intro s₁ ht₁ _ hhistory₁
    have hnodup : s₁.history.Nodup := by
      rw [hhistory₁]
      exact hinv.nodup
    have hpages : Scans chain treasury scanPage minDepositLamports k s₁
        (fun s' => ∃ rest, Stands k s.history s₁.history (.scanNext rest) s') :=
      scans_pages _ hnodup ht₁ rfl hpage (Nat.lt_succ_self _)
    rw [hhistory₁] at hpages
    exact hpages
  refine Leads.trans (Scans.inv hstarted hrun) ?_
  rintro _ ⟨hinv₂, rest, hstands⟩
  have hlanded : ∀ p ∈ rest, (chain p.1).isSome := by
    obtain ⟨t, ht, hcall, -⟩ := hstands
    exact (hinv₂.tasks k t ht).landed hcall
  refine Leads.trans (Scans.inv hinv₂ (scans_entries hlanded hstands)) ?_
  rintro s₃ ⟨hinv₃, t, ht, hcall, hgoal, -⟩
  apply Leads.here
  rw [← hgoal]
  exact (hinv₃.tasks k t ht).over hcall (handled_of_not_told s₃)

/-! ## Nothing is skipped -/

/-- The cursor has passed over what is handled only, and so has every scan that
ends its loop: all that was listed when it began. -/
structure System.Covered (chain : Signature → Option ChainTx) (treasury : Address) (s : System) :
    Prop where
  cursor : ∀ sig ∈ upTo s.history (s.tables.cursor.map Prod.fst), s.Handled chain treasury sig
  scans : ∀ k t, s.tasks.get k = some t → t.call = .scanNext [] →
    ∀ sig ∈ t.goal, s.Handled chain treasury sig

theorem Inv.initial {db : Db} {primary linked : Table Address UserId} (hhistory : history.Nodup) :
    Inv chain treasury (.initial db primary linked history) where
  nodup := hhistory
  withdrawn id row hrow := by simp [System.initial] at hrow
  cursor c hc := by simp [System.initial] at hc
  covered sig hsig := by simp [System.initial, upTo] at hsig
  tasks k t ht := by simp [System.initial] at ht

/-- In a run without a promotion between the reads of `record` the cursor never
passes an inbound transfer that has no row, dust of nobody apart; and in every
state a scan that sees what it looks up gives all of the history its rows. -/
theorem scan_skips_nothing {db : Db} {primary linked : Table Address UserId} {acts : List Act}
    (hhistory : history.Nodup)
    (hok : Along (step chain treasury) Ok (.initial db primary linked history) acts)
    (hrun : run (step chain treasury) (.initial db primary linked history) acts = some s) :
    s.Covered chain treasury ∧
      ∀ k scanPage minDepositLamports, s.tasks.get k = none → 0 < scanPage →
        Scans chain treasury scanPage minDepositLamports k s
          fun s' => ∀ sig ∈ s.history, s'.Handled chain treasury sig := by
  have hinv : Inv chain treasury s :=
    run_induct (fun _ _ _ hok hinv hstep => hinv.step hok hstep) (Inv.initial hhistory) hok hrun
  refine ⟨⟨hinv.covered, ?_⟩, ?_⟩
  · intro k t ht hcall
    exact (hinv.tasks k t ht).over hcall (handled_of_not_told s)
  · intro k scanPage minDepositLamports hfree hpage
    exact scan_completes hinv hfree hpage

namespace Sample

def ada : User :=
  ⟨some "ada", "ada", false, some 1, none, none, fun _ => 0, 0, 0, 0, 0, 0⟩

def db : Db := { Db.empty with users := fun u => if u = 7 then some ada else none }

/-- 50 from the wallet "ledger". -/
def transfer : ChainTx where
  slot := 1
  err := false
  keys := ["ledger", "treasury"]
  numRequiredSignatures := 1
  preBalances := [100, 0]
  postBalances := [49, 50]
  signed := by decide

def ledger (signature : Signature) : Option ChainTx :=
  if signature = "sig" then some transfer else none

def init : System := .initial db (Table.empty.set "ada" 7) (Table.empty.set "ledger" 7) ["sig"]

/-- The scan up to the second read of `record`, and from there on; 50 is below
the minimum. -/
def toRead : List Act := .start 0 .scan 1000 :: List.replicate 5 (.run 0 (answers 0 100))

def fromRead : List Act := List.replicate 3 (.run 0 (answers 0 100))

/-- Ada makes "ledger" her primary wallet. -/
def setPrimary : Act := .relink (Table.empty.set "ledger" 7) (Table.empty.set "ada" 7)

/-- An account owns "ledger". -/
def Owned (s : System) : Prop := ¬ (standing s.tables ["ledger"]).Unowned

instance (s : System) : Decidable (Owned s) := inferInstanceAs (Decidable (¬ _))

theorem read_recorded : (run (step ledger "treasury") init (toRead ++ fromRead)).any (fun s =>
    decide (s.tables.cursor = some ("sig", 1) ∧ s.dust = [] ∧ s.history = ["sig"] ∧
      s.tasks.get 1 = none)) = true := by
  decide +kernel

theorem read_steady : Along (step ledger "treasury") Ok init (toRead ++ fromRead) := by
  decide +kernel

theorem promoted_skipped :
    (run (step ledger "treasury") init (toRead ++ setPrimary :: fromRead)).any (fun s =>
      decide (s.tables.cursor = some ("sig", 1) ∧ s.tables.transfers.entries = [] ∧ s.dust = [] ∧
        s.history = ["sig"] ∧ Owned s)) = true := by
  decide +kernel

theorem promoted_owned : Along (step ledger "treasury") (fun s _ => Owned s) init
    (toRead ++ setPrimary :: fromRead) := by
  decide +kernel

theorem told : Told ledger "treasury" "sig" ⟨1, 50, ["ledger"]⟩ :=
  ⟨transfer, if_pos rfl, by decide +kernel⟩

end Sample

/-- Dust of a wallet that an account owned at every step is passed over. -/
theorem promoted_dust_skipped : ∃ s,
    Along (step Sample.ledger "treasury") (fun s _ => Sample.Owned s) Sample.init
      (Sample.toRead ++ Sample.setPrimary :: Sample.fromRead) ∧
    run (step Sample.ledger "treasury") Sample.init
      (Sample.toRead ++ Sample.setPrimary :: Sample.fromRead) = some s ∧
    Sample.Owned s ∧ ¬ s.Covered Sample.ledger "treasury" := by
  obtain ⟨s, hs, h⟩ := (Option.any_eq_true _ _).mp Sample.promoted_skipped
  obtain ⟨hcursor, hrows, hdust, hhistory, howned⟩ := of_decide_eq_true h
  refine ⟨s, Sample.promoted_owned, hs, howned, ?_⟩
  intro hcovered
  have hsig : "sig" ∈ upTo s.history (s.tables.cursor.map Prod.fst) := by
    rw [hcursor, hhistory]
    decide
  cases hcovered.cursor "sig" hsig _ Sample.told with
  | inl hrow =>
    obtain ⟨_, _, hget, -⟩ := hrow
    have hmem := s.tables.transfers.get_eq_some.mp hget
    rw [hrows] at hmem
    cases hmem
  | inr hmem =>
    rw [hdust] at hmem
    cases hmem

/-- Without the swap the same scan writes the row. -/
theorem scan_skips_nothing_dust : ∃ s,
    run (step Sample.ledger "treasury") Sample.init (Sample.toRead ++ Sample.fromRead) = some s ∧
    Recorded s.tables "sig" ∧
    Scans Sample.ledger "treasury" 1000 100 1 s
      (fun s' => ∀ sig ∈ s.history, s'.Handled Sample.ledger "treasury" sig) := by
  obtain ⟨s, hs, h⟩ := (Option.any_eq_true _ _).mp Sample.read_recorded
  obtain ⟨hcursor, hdust, hhistory, hfree⟩ := of_decide_eq_true h
  have hboth := scan_skips_nothing (by decide) Sample.read_steady hs
  refine ⟨s, hs, ?_, hboth.2 1 1000 100 hfree (by decide)⟩
  have hsig : "sig" ∈ upTo s.history (s.tables.cursor.map Prod.fst) := by
    rw [hcursor, hhistory]
    decide
  cases hboth.1.cursor "sig" hsig _ Sample.told with
  | inl hrow => exact hrow
  | inr hmem =>
    rw [hdust] at hmem
    cases hmem

end Scadium.Custody.Scan
