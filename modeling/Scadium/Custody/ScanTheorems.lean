/-
Scadium.Custody.ScanTheorems — the scan of deposits skips nothing.

A scan reads the history backwards and records it forwards. What carries the
proof is where a scan stands in the history: all that is older than the entry
it is at is handled, and all that is newer is still before it. So it moves the
cursor only over what is handled, wherever the other scans have moved it.

The one transfer it can pass over is dust of a wallet that becomes primary
between the two reads of `record` (`promoted_dust_skipped`).
-/
import Scadium.Custody.DepositTheorems
import Scadium.Custody.Scan

namespace Scadium.Custody.Scan

open Scadium.Lib Scadium.Prisma Scadium.Prisma.Committed

variable {chain : Signature → Option ChainTx} {treasury : Address} {tables : CustodyDb}
  {env : Env} {signature : Signature} {id : TransferId} {row : CustodyTransfer}
  {history goal : List Signature} {rest : List (Signature × Nat)} {t : Task} {s s' : System}

/-! ## Rows -/

/-- A deposit's row has the signature. -/
def Recorded (tables : CustodyDb) (signature : Signature) : Prop :=
  ∃ id row, tables.transfers.get id = some row ∧ row.kind = .deposit ∧
    row.txSignature = some signature

/-- The rows of deposits keep their signature. -/
def Keeps (tables tables' : CustodyDb) : Prop :=
  ∀ id row, tables.transfers.get id = some row → row.kind = .deposit → ∃ row',
    tables'.transfers.get id = some row' ∧ row'.kind = .deposit ∧
      row'.txSignature = row.txSignature

/-- And a new row is a deposit's. -/
structure Rewrites (tables tables' : CustodyDb) : Prop where
  kept : Keeps tables tables'
  fresh : ∀ id row', tables'.transfers.get id = some row' → row'.kind = .withdraw → ∃ row,
    tables.transfers.get id = some row ∧ row.kind = .withdraw ∧
      row.txSignature = row'.txSignature

theorem Rewrites.of_eq {tables' : CustodyDb} (h : tables'.transfers = tables.transfers) :
    Rewrites tables tables' where
  kept id row hrow hkind := ⟨row, by rw [h, hrow], hkind, rfl⟩
  fresh id row hrow hkind := ⟨row, by rw [← h, hrow], hkind, rfl⟩

theorem Rewrites.set {tables' : CustodyDb} (row' : CustodyTransfer)
    (h : tables'.transfers = tables.transfers.set id row')
    (hrow : tables.transfers.get id = some row) (hkind : row'.kind = row.kind)
    (hsignature : row'.txSignature = row.txSignature) : Rewrites tables tables' := by
  constructor
  · intro j old hold hdeposit
    rw [h, Table.get_set]
    split
    case isTrue heq =>
      subst heq
      cases hrow.symm.trans hold
      exact ⟨row', rfl, hkind.trans hdeposit, hsignature⟩
    case isFalse => exact ⟨old, hold, hdeposit, rfl⟩
  · intro j new hnew hw
    rw [h, Table.get_set] at hnew
    split at hnew
    case isTrue heq =>
      subst heq
      cases hnew
      exact ⟨row, hrow, hkind.symm.trans hw, hsignature.symm⟩
    case isFalse => exact ⟨new, hnew, hw, rfl⟩

theorem Rewrites.create {tables' : CustodyDb} (h : tables'.transfers = tables.transfers.set id row)
    (hid : tables.transfers.get id = none) (hkind : row.kind = .deposit) :
    Rewrites tables tables' := by
  constructor
  · intro j old hold hdeposit
    have hne : j ≠ id := by
      intro heq
      rw [heq, hid] at hold
      cases hold
    exact ⟨old, by rw [h, tables.transfers.get_set_ne hne, hold], hdeposit, rfl⟩
  · intro j new hnew hw
    rw [h, Table.get_set] at hnew
    split at hnew
    · cases hnew
      rw [hkind] at hw
      cases hw
    · exact ⟨new, hnew, hw, rfl⟩

theorem Recorded.kept {tables' : CustodyDb} (h : Recorded tables signature)
    (hkept : Keeps tables tables') : Recorded tables' signature := by
  obtain ⟨id, row, hrow, hkind, hsignature⟩ := h
  obtain ⟨row', hrow', hkind', hsignature'⟩ := hkept id row hrow hkind
  exact ⟨id, row', hrow', hkind', hsignature'.trans hsignature⟩

theorem afterCredit_rewrites (tables : CustodyDb) (env : Env) (id : TransferId) :
    Rewrites tables (tables.afterCredit env id) := by
  cases tables.afterCredit_cases env id with
  | inl h => exact .of_eq (by rw [h])
  | inr h =>
    obtain ⟨row, hrow, -, hpaid | hheld⟩ := h
    · obtain ⟨userId, -, hpays⟩ := hpaid
      exact .set _ hpays.transfers hrow rfl rfl
    · obtain ⟨reason, userId, heq, -⟩ := hheld
      exact .set { row with heldReason := some reason, userId := userId }
        (congrArg CustodyDb.transfers heq) hrow rfl rfl

/-- A call writes rows of deposits only. -/
theorem step_rewrites (c : Call) : Rewrites tables (c.step chain treasury tables env).1 := by
  have hsame : Rewrites tables tables := .of_eq rfl
  cases c with
  | confirm | confirmFetch | findConflict | scanFetch =>
    simp only [Call.step]
    split <;> exact hsame
  | create =>
    simp only [Call.step]
    split
    · exact hsame
    · split
      · exact hsame
      · split
        · exact hsame
        case isFalse hid =>
          simp only [Bool.not_eq_true, Option.isSome_eq_false_iff, Option.isNone_iff_eq_none] at hid
          exact .create rfl hid rfl
  | credit id => exact afterCredit_rewrites tables env id
  | scanNext rest =>
    cases rest with
    | nil => exact hsame
    | cons entry =>
      obtain ⟨_, _⟩ := entry
      simp only [Call.step]
      split <;> exact hsame
  | retry ids =>
    cases ids with
    | nil => exact hsame
    | cons id => exact afterCredit_rewrites tables env id
  | scanSave => exact .of_eq rfl
  | readPrimary | readLinked | scan | scanList | retryHeld | done => exact hsame

/-! ## The cursor -/

theorem pay_cursor {tables' : CustodyDb} {db : Db} {userId : UserId}
    (h : tables.pay db id row userId = .ok tables') : tables'.cursor = tables.cursor := by
  obtain ⟨_, -, hok⟩ := bind_ok.mp h
  cases hok
  rfl

theorem creditTo_cursor {tables' : CustodyDb} {userId : UserId}
    (h : tables.creditTo env id row userId = .ok tables') : tables'.cursor = tables.cursor := by
  obtain ⟨_, -, hrest⟩ := bind_ok.mp h
  split at hrest
  · exact pay_cursor hrest
  · split at hrest
    · cases hrest
      rfl
    · obtain ⟨_, -, hpay⟩ := bind_ok.mp hrest
      exact pay_cursor hpay

theorem credit_cursor {tables' : CustodyDb} (h : tables.credit env id = .ok tables') :
    tables'.cursor = tables.cursor := by
  obtain ⟨_, -, hrest⟩ := bind_ok.mp h
  split at hrest
  · cases hrest
    rfl
  · unfold CustodyDb.creditHeld at hrest
    split at hrest
    · cases hrest
      rfl
    · split at hrest
      · cases hrest
        rfl
      · split at hrest
        · cases hrest
          rfl
        · exact creditTo_cursor hrest

theorem afterCredit_cursor (tables : CustodyDb) (env : Env) (id : TransferId) :
    (tables.afterCredit env id).cursor = tables.cursor := by
  unfold CustodyDb.afterCredit
  split
  case h_1 tables' h => exact credit_cursor h
  case h_2 => rfl

/-- Only the save of a scan moves the cursor. -/
theorem step_cursor (c : Call) (h : ∀ signature slot rest, c ≠ .scanSave signature slot rest) :
    (c.step chain treasury tables env).1.cursor = tables.cursor := by
  cases c with
  | scanSave signature slot rest => exact absurd rfl (h signature slot rest)
  | confirm | confirmFetch | findConflict | scanFetch =>
    simp only [Call.step]
    split <;> rfl
  | create =>
    simp only [Call.step]
    split
    · rfl
    · split
      · rfl
      · split <;> rfl
  | credit id => exact afterCredit_cursor tables env id
  | scanNext rest =>
    cases rest with
    | nil => rfl
    | cons entry =>
      obtain ⟨_, _⟩ := entry
      simp only [Call.step]
      split <;> rfl
  | retry ids =>
    cases ids with
    | nil => rfl
    | cons id => exact afterCredit_cursor tables env id
  | readPrimary | readLinked | scan | scanList | retryHeld | done => rfl

/-! ## What is handled -/

/-- The signature is not that of an inbound transfer, or the transfer has its
row, or it was dust of nobody. -/
def Handled (chain : Signature → Option ChainTx) (treasury : Address) (tables : CustodyDb)
    (dust : List Signature) (signature : Signature) : Prop :=
  ∀ tx, Told chain treasury signature tx → Recorded tables signature ∨ signature ∈ dust

/-- The treasury signed every withdrawal. -/
def Withdrawn (chain : Signature → Option ChainTx) (treasury : Address) (tables : CustodyDb) :
    Prop :=
  ∀ id row, tables.transfers.get id = some row → row.kind = .withdraw →
    Outgoing chain treasury row

theorem Handled.kept {tables' : CustodyDb} {dust : List Signature}
    (h : Handled chain treasury tables dust signature) (hkept : Keeps tables tables')
    (new : List Signature) : Handled chain treasury tables' (new ++ dust) signature := by
  intro tx htold
  cases h tx htold with
  | inl hrec => exact .inl (hrec.kept hkept)
  | inr hdust => exact .inr (List.mem_append_right new hdust)

theorem Withdrawn.rewrites {tables' : CustodyDb} (h : Withdrawn chain treasury tables)
    (hrw : Rewrites tables tables') : Withdrawn chain treasury tables' := by
  intro id row' hrow' hkind signature hsignature
  obtain ⟨row, hrow, hw, heq⟩ := hrw.fresh id row' hrow' hkind
  rw [← heq] at hsignature
  exact h id row hrow hw signature hsignature

theorem Told.not_signed {tx : Inbound} {c : ChainTx} (h : Told chain treasury signature tx)
    (hc : chain signature = some c) : treasury ∉ c.signers := by
  obtain ⟨_, hc', hclass⟩ := h
  cases hc.symm.trans hc'
  intro hsigned
  unfold ChainTx.classify at hclass
  split at hclass <;> cases hclass

/-- A row that an inbound transfer has is a deposit's. -/
theorem Withdrawn.recorded (h : Withdrawn chain treasury tables) {tx : Inbound}
    (htold : Told chain treasury signature tx)
    (hfound : (tables.findBySignature signature).isSome) : Recorded tables signature := by
  obtain ⟨p, hp⟩ := Option.isSome_iff_exists.mp hfound
  have hmem := List.mem_of_find?_eq_some hp
  have hsignature : p.2.txSignature = some signature := by
    simpa using List.find?_some hp
  have hrow : tables.transfers.get p.1 = some p.2 := tables.transfers.get_eq_some.mpr hmem
  cases hkind : p.2.kind with
  | deposit => exact ⟨p.1, p.2, hrow, hkind, hsignature⟩
  | withdraw =>
    obtain ⟨c, hc, hclass⟩ := htold
    have hsigned := h p.1 p.2 hrow hkind signature hsignature c hc
    exact absurd hsigned (Told.not_signed ⟨c, hc, hclass⟩ hc)

/-- A transaction that is seen and is not an inbound transfer. -/
theorem not_told (env : Env) {tx : Inbound}
    (hmissing : treasuryTx chain treasury env signature ≠ .missing)
    (hother : ∀ slot amount signers,
      treasuryTx chain treasury env signature ≠ .inbound slot amount signers) :
    ¬ Told chain treasury signature tx := by
  rintro ⟨c, hc, hclass⟩
  unfold treasuryTx at hmissing hother
  rw [hc] at hmissing hother
  simp only at hmissing hother
  split at hother
  · exact hother _ _ _ hclass
  case isFalse hhidden =>
    rw [if_neg hhidden] at hmissing
    exact hmissing rfl

/-! ## Owners -/

theorem insertWith_ne_nil (f : Option Address → Address) (k : UserId)
    (m : List (UserId × Address)) : insertWith f k m ≠ [] := by
  obtain ⟨_, hmem⟩ := exists_mem_insertWith f k m
  exact List.ne_nil_of_mem hmem

theorem setOwners_eq_nil {m ps : List (UserId × Address)} (h : setOwners m ps = []) :
    m = [] ∧ ps = [] := by
  induction ps generalizing m with
  | nil => exact ⟨h, rfl⟩
  | cons p ps ih => exact absurd (ih h).1 (insertWith_ne_nil _ p.1 m)

theorem addOwners_eq_nil {m ps : List (UserId × Address)} (h : addOwners m ps = []) :
    m = [] ∧ ps = [] := by
  induction ps generalizing m with
  | nil => exact ⟨h, rfl⟩
  | cons p ps ih => exact absurd (ih h).1 (insertWith_ne_nil _ p.1 m)

/-- A read that finds no owner. -/
theorem findOwned_eq_nil {t : Table Address UserId} {wallets : List Address}
    (h : findOwned t wallets = []) : (wallets.any fun w => (t.get w).isSome) = false := by
  simp only [findOwned, List.filterMap_eq_nil_iff, Option.map_eq_none_iff] at h
  simpa using h

/-! ## Where a scan stands -/

/-- What a scan has still before it: `rest` are the entries newer than `old`, and
what was listed when the scan began is among them or older. -/
def Ahead (chain : Signature → Option ChainTx) (history goal old : List Signature)
    (rest : List (Signature × Nat)) : Prop :=
  ∃ top seg, history = top ++ (seg ++ old) ∧ rest = (seg.filterMap (entry chain)).reverse ∧
    ∀ signature ∈ goal, signature ∈ seg ++ old

/-- The pages a scan has read. -/
structure Reading (chain : Signature → Option ChainTx) (history goal : List Signature)
    (since : Option Signature) (t : Task) (top seg rest : List Signature) : Prop where
  history : history = top ++ (seg ++ rest)
  out : t.out = seg.filterMap (entry chain)
  goal : ∀ signature ∈ goal, signature ∈ seg ++ rest
  first : t.before = none → top = [] ∧ seg = [] ∧ ∀ c ∈ since, c ∈ rest
  later : ∀ b, t.before = some b → ∃ init, seg = init ++ [b]

/-- A scan at one entry of the history. -/
def At (chain : Signature → Option ChainTx) (history goal : List Signature)
    (H : Signature → Prop) (signature : Signature) (rest : List (Signature × Nat)) : Prop :=
  ∃ old, (∀ older ∈ old, H older) ∧ Ahead chain history goal (signature :: old) rest

/-- What a task knows, `H` being what is handled. -/
def Task.Sees (chain : Signature → Option ChainTx) (treasury : Address)
    (history : List Signature) (H : Signature → Prop) (t : Task) : Prop :=
  match t.call with
  | .scan => t.before = none ∧ t.out = []
  | .scanList since => ∃ top seg rest, Reading chain history t.goal since t top seg rest ∧
      ∀ signature ∈ upTo rest since, H signature
  | .scanNext rest => ∃ old, (∀ older ∈ old, H older) ∧ Ahead chain history t.goal old rest
  | .scanFetch signature _ rest => At chain history t.goal H signature rest
  | .readPrimary signature tx (.scan _ rest) =>
      Told chain treasury signature tx ∧ At chain history t.goal H signature rest
  | .readLinked signature tx primary (.scan _ rest) =>
      Told chain treasury signature tx ∧ At chain history t.goal H signature rest ∧
        (primary = [] → t.first.primary = false)
  | .create signature tx owners (.scan _ rest) =>
      Told chain treasury signature tx ∧ At chain history t.goal H signature rest ∧
        (owners = [] → t.first.primary = false ∧ t.second.linked = false)
  | .findConflict signature (.scan _ rest) =>
      H signature ∧ At chain history t.goal H signature rest
  | .scanSave signature _ rest => H signature ∧ At chain history t.goal H signature rest
  | _ => True

section Stand

variable {H H' : Signature → Prop} {old top seg new : List Signature} {since : Option Signature}

theorem Ahead.grow (h : Ahead chain history goal old rest) (new : List Signature) :
    Ahead chain (new ++ history) goal old rest := by
  obtain ⟨top, seg, rfl, hrest, hgoal⟩ := h
  exact ⟨new ++ top, seg, by simp, hrest, hgoal⟩

theorem At.grow (h : At chain history goal H signature rest) (hH : ∀ s, H s → H' s)
    (new : List Signature) : At chain (new ++ history) goal H' signature rest := by
  obtain ⟨old, hold, hahead⟩ := h
  exact ⟨old, fun s hs => hH s (hold s hs), hahead.grow new⟩

theorem Reading.grow {rest : List Signature}
    (h : Reading chain history goal since t top seg rest) (hold : ∀ s ∈ upTo rest since, H s)
    (hH : ∀ s, H s → H' s) (hnodup : (new ++ history).Nodup) :
    ∃ top seg rest, Reading chain (new ++ history) goal since t top seg rest ∧
      ∀ s ∈ upTo rest since, H' s := by
  cases hbefore : t.before with
  | some =>
    refine ⟨new ++ top, seg, rest, ⟨?_, h.out, h.goal, ?_, h.later⟩, fun s hs => hH s (hold s hs)⟩
    · simp [h.history]
    · intro hnone
      simp [hbefore] at hnone
  | none =>
    obtain ⟨rfl, rfl, hsince⟩ := h.first hbefore
    have hhistory : history = rest := h.history
    subst hhistory
    have hapart : ∀ c ∈ since, c ∉ new := by
      intro c hc hnew
      exact (List.disjoint_of_nodup_append hnodup) hnew (hsince c hc)
    refine ⟨[], [], new ++ history, ⟨rfl, h.out, ?_, ?_, ?_⟩, ?_⟩
    · intro s hs
      exact List.mem_append_right new (h.goal s hs)
    · intro _
      exact ⟨rfl, rfl, fun c hc => List.mem_append_right new (hsince c hc)⟩
    · intro b hb
      simp [hbefore] at hb
    · intro s hs
      rw [upTo_append hapart] at hs
      exact hH s (hold s hs)

theorem Task.Sees.grow (new : List Signature) (h : t.Sees chain treasury history H)
    (hH : ∀ s, H s → H' s) (hnodup : (new ++ history).Nodup) :
    t.Sees chain treasury (new ++ history) H' := by
  unfold Task.Sees at h ⊢
  split at h
  case h_1 => exact h
  case h_2 =>
    obtain ⟨_, _, _, hreading, hold⟩ := h
    exact hreading.grow hold hH hnodup
  case h_3 =>
    obtain ⟨old, hold, hahead⟩ := h
    exact ⟨old, fun s hs => hH s (hold s hs), hahead.grow new⟩
  case h_4 => exact h.grow hH new
  case h_5 => exact ⟨h.1, h.2.grow hH new⟩
  case h_6 => exact ⟨h.1, h.2.1.grow hH new, h.2.2⟩
  case h_7 => exact ⟨h.1, h.2.1.grow hH new, h.2.2⟩
  case h_8 => exact ⟨hH _ h.1, h.2.grow hH new⟩
  case h_9 => exact ⟨hH _ h.1, h.2.grow hH new⟩
  case h_10 => trivial

theorem Reading.olderThan {rest : List Signature}
    (h : Reading chain history goal since t top seg rest) (hnodup : history.Nodup) :
    Lib.olderThan history t.before = rest := by
  cases hbefore : t.before with
  | none =>
    obtain ⟨rfl, rfl, -⟩ := h.first hbefore
    simpa using h.history
  | some b =>
    obtain ⟨init, rfl⟩ := h.later b hbefore
    have hhistory : history = (top ++ init) ++ b :: rest := by
      rw [h.history]
      simp
    have hb : b ∉ top ++ init := by
      rw [hhistory] at hnodup
      intro hmem
      exact (List.disjoint_of_nodup_append hnodup) hmem (List.mem_cons_self ..)
    rw [hhistory, olderThan_some hb]

/-- A page further. -/
theorem Reading.page {rest : List Signature} (hcall : t.call = .scanList since)
    (h : Reading chain history t.goal since t top seg rest) (hnodup : history.Nodup)
    (hold : ∀ s ∈ upTo rest since, H s) :
    (t.readPage chain history since).Sees chain treasury history H := by
  unfold Task.readPage pageOf
  rw [h.olderThan hnodup]
  simp only
  split
  case isTrue hshort =>
    refine ⟨upTo rest since, hold, top, seg ++ (newerThan rest since).take t.scanPage, ?_, ?_, ?_⟩
    · rw [List.append_assoc, ← short_page hshort, h.history]
    · rw [h.out, List.filterMap_append]
    · rw [List.append_assoc, ← short_page hshort]
      exact h.goal
  case isFalse =>
    split
    case h_1 last hlast =>
      obtain ⟨init, hpage⟩ := List.getLast?_eq_some_iff.mp hlast
      obtain ⟨rest', hrest, hupTo⟩ := upTo_drop rest since t.scanPage
      unfold Task.Sees
      simp only [hcall]
      refine ⟨top, seg ++ (newerThan rest since).take t.scanPage, rest', ⟨?_, ?_, ?_, ?_, ?_⟩, ?_⟩
      · rw [List.append_assoc, ← hrest, h.history]
      · rw [h.out, List.filterMap_append]
      · rw [List.append_assoc, ← hrest]
        exact h.goal
      · intro hnone
        cases hnone
      · intro b hb
        cases hb
        exact ⟨seg ++ init, by rw [hpage, List.append_assoc]⟩
      · rw [hupTo]
        exact hold
    case h_2 => trivial

/-- A transaction that failed brought nothing. -/
theorem entry_none (h : entry chain signature = none) {tx : Inbound} :
    ¬ Told chain treasury signature tx := by
  rintro ⟨c, hc, hclass⟩
  have herr := (c.classify_inbound hclass).1
  simp [entry, hc, herr] at h

/-- The oldest entry before a scan. -/
theorem Ahead.next {slot : Nat} (h : Ahead chain history goal old ((signature, slot) :: rest))
    (hold : ∀ o ∈ old, H o)
    (hH : ∀ s, (∀ tx, ¬ Told chain treasury s tx) → H s) :
    At chain history goal H signature rest := by
  obtain ⟨top, seg, hhistory, hrest, hgoal⟩ := h
  rw [← List.filterMap_reverse] at hrest
  obtain ⟨errs, s, newer, hseg, herrs, hs, hnewer⟩ := List.filterMap_eq_cons_iff.mp hrest.symm
  have hname : s = signature := by
    unfold entry at hs
    obtain ⟨tx, -, hs⟩ := Option.bind_eq_some_iff.mp hs
    split at hs
    · cases hs
    · cases hs
      rfl
  subst hname
  have heq : seg = newer.reverse ++ s :: errs.reverse := by
    rw [← List.reverse_reverse seg, hseg]
    simp
  refine ⟨errs.reverse ++ old, ?_, top, newer.reverse, ?_, ?_, ?_⟩
  · intro o ho
    cases List.mem_append.mp ho with
    | inl hmem => exact hH o fun tx => entry_none (herrs o (List.mem_reverse.mp hmem))
    | inr hmem => exact hold o hmem
  · rw [hhistory, heq]
    simp
  · rw [← hnewer, List.filterMap_reverse, List.reverse_reverse]
  · intro g hg
    have hmem := hgoal g hg
    rw [heq] at hmem
    simpa using hmem

/-- The cursor may stand at an entry that is handled, with all that is older. -/
theorem At.upTo (h : At chain history goal H signature rest) (hnodup : history.Nodup)
    (hs : H signature) : signature ∈ history ∧ ∀ s ∈ upTo history (some signature), H s := by
  obtain ⟨_, hold, top, seg, rfl, -, -⟩ := h
  rw [← List.append_assoc] at hnodup ⊢
  have hapart : signature ∉ top ++ seg := by
    intro hmem
    exact (List.disjoint_of_nodup_append hnodup) hmem (List.mem_cons_self ..)
  refine ⟨by simp, ?_⟩
  rw [upTo_some hapart]
  intro s hmem
  cases List.mem_cons.mp hmem with
  | inl heq => exact heq ▸ hs
  | inr hmem => exact hold s hmem

theorem At.done (h : At chain history goal H signature rest) (hs : H signature) :
    ∃ old, (∀ o ∈ old, H o) ∧ Ahead chain history goal old rest := by
  obtain ⟨old, hold, hahead⟩ := h
  refine ⟨signature :: old, ?_, hahead⟩
  intro o ho
  cases List.mem_cons.mp ho with
  | inl heq => exact heq ▸ hs
  | inr hmem => exact hold o hmem

end Stand

/-! ## Steps of a task -/

/-- The transfer that a scan is about to write. -/
def recording : Call → Option (Signature × Inbound)
  | .create signature tx _ (.scan ..) => some (signature, tx)
  | _ => none

/-- Between the reads of `record`, a small transfer's wallet is not made
primary; where it is, the transfer has its row already. -/
def Task.Steady (tables : CustodyDb) (env : Env) (t : Task) : Prop :=
  ∀ p ∈ recording t.call, p.2.amount < env.minDepositLamports →
    (tables.findBySignature p.1).isSome = false → ¬ t.Promoted

instance (tables : CustodyDb) (env : Env) (t : Task) : Decidable (t.Steady tables env) :=
  inferInstanceAs (Decidable (∀ p ∈ recording t.call, _))

/-- What is handled after a step of the task. -/
def Task.Handles (chain : Signature → Option ChainTx) (treasury : Address) (s : System)
    (env : Env) (t : Task) : Signature → Prop :=
  Handled chain treasury (t.step chain treasury s env).1 (t.ignored env ++ s.dust)

theorem Task.step_rewrites (t : Task) (s : System) (env : Env) :
    Rewrites s.tables (t.step chain treasury s env).1 := by
  unfold Task.step
  split
  · exact .of_eq rfl
  · exact Scan.step_rewrites t.call

theorem Task.handles_mono (chain : Signature → Option ChainTx) (treasury : Address) (t : Task)
    (s : System) (env : Env) : ∀ sig, Handled chain treasury s.tables s.dust sig →
      t.Handles chain treasury s env sig :=
  fun _ h => h.kept (t.step_rewrites s env).kept _

/-- A step that reads no page. -/
theorem Task.step_eq (hlist : ∀ since, t.call ≠ .scanList since) :
    t.step chain treasury s env = ((t.call.step chain treasury s.tables env).1,
      { t.note s with call := (t.call.step chain treasury s.tables env).2 }) := by
  unfold Task.step
  split
  case h_1 since hcall => exact absurd hcall (hlist since)
  case h_2 => rfl

theorem Task.step_task {next : Call} (hlist : ∀ since, t.call ≠ .scanList since)
    (h : (t.call.step chain treasury s.tables env).2 = next) :
    (t.step chain treasury s env).2 = { t.note s with call := next } := by
  rw [Task.step_eq hlist, h]

/-- Both reads found nobody, and no wallet was promoted between them. -/
theorem Task.unowned (hprimary : t.first.primary = false) (hlinked : t.second.linked = false)
    (h : ¬ t.Promoted) : t.Unowned := by
  cases hl : t.first.linked with
  | false => exact .inl ⟨hprimary, hl⟩
  | true =>
    cases hp : t.second.primary with
    | false => exact .inr ⟨hp, hlinked⟩
    | true =>
      refine absurd ⟨?_, ?_⟩ h
      · rw [← hprimary, ← hl]
      · rw [← hp, ← hlinked]

/-- A call that is not scanning, or no longer. -/
def Aside : Call → Prop
  | .confirm _ | .confirmFetch _ | .credit _ | .retryHeld | .retry _ | .done => True
  | .readPrimary _ _ caller | .readLinked _ _ _ caller | .create _ _ _ caller
  | .findConflict _ caller => caller = .confirm
  | _ => False

theorem Aside.sees {H : Signature → Prop} (h : Aside t.call) : t.Sees chain treasury history H := by
  unfold Task.Sees
  split <;> simp_all [Aside]

theorem aside_confirmRow (id : TransferId) (row : CustodyTransfer) : Aside (confirmRow id row) := by
  unfold confirmRow
  split <;> trivial

theorem Aside.step {c : Call} (h : Aside c) : Aside (c.step chain treasury tables env).2 := by
  cases c with
  | confirm =>
    simp only [Call.step]
    split
    · split
      · exact aside_confirmRow ..
      · trivial
    · trivial
  | confirmFetch =>
    simp only [Call.step]
    split
    · rfl
    · trivial
  | readPrimary => exact h
  | readLinked => exact h
  | create signature tx owners =>
    cases h
    simp only [Call.step]
    split
    · trivial
    · split
      · rfl
      · split
        · trivial
        · exact aside_confirmRow env.newId (depositRow signature tx owners)
  | findConflict =>
    cases h
    simp only [Call.step]
    split
    · exact aside_confirmRow ..
    · trivial
  | credit => trivial
  | retryHeld => trivial
  | retry ids => cases ids <;> trivial
  | done => trivial
  | scan | scanList | scanNext | scanFetch | scanSave => cases h

theorem Aside.step_sees {H : Signature → Prop} (h : Aside t.call) :
    (t.step chain treasury s env).2.Sees chain treasury history H := by
  have hlist : ∀ since, t.call ≠ .scanList since := by
    intro since heq
    rw [heq] at h
    exact h
  rw [Task.step_eq hlist]
  exact Aside.sees h.step

/-- The write of `record`, in a scan. -/
theorem create_sees {tx : Inbound} {owners : List (UserId × Address)} {slot : Nat}
    (hcall : t.call = .create signature tx owners (.scan slot rest))
    (hw : Withdrawn chain treasury s.tables) (hsteady : t.Steady s.tables env)
    (h : t.Sees chain treasury s.history (Handled chain treasury s.tables s.dust)) :
    (t.step chain treasury s env).2.Sees chain treasury s.history
      (t.Handles chain treasury s env) := by
  have hmono := t.handles_mono chain treasury s env
  have hsteady' := hsteady (signature, tx) (by simp [hcall, recording])
  unfold Task.Sees at h
  simp only [hcall] at h
  obtain ⟨_, hat, howners⟩ := h
  have hat' := hat.grow hmono []
  have hnote : t.note s = t := by simp only [Task.note, hcall]
  have hlist : ∀ since, t.call ≠ .scanList since := by simp [hcall]
  have hknown : (s.tables.findBySignature signature).isSome →
      t.Handles chain treasury s env signature := by
    intro hfound
    exact hmono signature fun tx' htold' => .inl (hw.recorded htold' hfound)
  by_cases hnull : owners = [] ∧ tx.amount < env.minDepositLamports
  · have hignored : t.Handles chain treasury s env signature := by
      by_cases hfound : (s.tables.findBySignature signature).isSome
      · exact hknown hfound
      · have hunowned : t.Unowned := Task.unowned (howners hnull.1).1 (howners hnull.1).2
          (hsteady' hnull.2 (by simpa using hfound))
        intro tx' _
        right
        simp [Task.ignored, hcall, hnull, hunowned]
    have hnext : (t.call.step chain treasury s.tables env).2 = .scanSave signature slot rest := by
      simp only [hcall, Call.step, if_pos hnull, notRecorded]
    rw [Task.step_task hlist hnext, hnote]
    exact ⟨hignored, hat'⟩
  · cases hfound : (s.tables.findBySignature signature).isSome with
    | true =>
      have hnext : (t.call.step chain treasury s.tables env).2 =
          .findConflict signature (.scan slot rest) := by
        simp only [hcall, Call.step, if_neg hnull, hfound, if_true]
      rw [Task.step_task hlist hnext, hnote]
      exact ⟨hknown hfound, hat'⟩
    | false =>
      cases hid : s.tables.transfers.get env.newId with
      | some =>
        have hnext : (t.call.step chain treasury s.tables env).2 = .done := by
          simp [hcall, Call.step, if_neg hnull, hfound, hid]
        rw [Task.step_task hlist hnext]
        trivial
      | none =>
        have hcreate : t.call.step chain treasury s.tables env =
            ({ s.tables with transfers :=
                s.tables.transfers.set env.newId (depositRow signature tx owners) },
              .scanSave signature slot rest) := by
          simp [hcall, Call.step, if_neg hnull, hfound, hid, recorded]
        have hnew : t.Handles chain treasury s env signature := by
          intro tx' _
          left
          rw [Task.step_eq hlist, hcreate]
          exact ⟨env.newId, _, Table.get_set_self _, rfl, rfl⟩
        rw [Task.step_task hlist (congrArg Prod.snd hcreate), hnote]
        exact ⟨hnew, hat'⟩

/-- A step of a task keeps what it knows. -/
theorem Task.step_sees (hw : Withdrawn chain treasury s.tables) (hnodup : s.history.Nodup)
    (hcursor : ∀ c ∈ s.tables.cursor.map Prod.fst, c ∈ s.history)
    (hcovered : ∀ sig ∈ upTo s.history (s.tables.cursor.map Prod.fst),
      Handled chain treasury s.tables s.dust sig)
    (hsteady : t.Steady s.tables env)
    (h : t.Sees chain treasury s.history (Handled chain treasury s.tables s.dust)) :
    (t.step chain treasury s env).2.Sees chain treasury s.history
      (t.Handles chain treasury s env) := by
  have hmono := t.handles_mono chain treasury s env
  have hfailed : ∀ sig, (∀ tx, ¬ Told chain treasury sig tx) →
      t.Handles chain treasury s env sig := fun sig hno tx htold => absurd htold (hno tx)
  cases hcall : t.call with
  | scan =>
    have hnext : (t.call.step chain treasury s.tables env).2 =
        .scanList (s.tables.cursor.map Prod.fst) := by
      rw [hcall, Call.step]
    rw [Task.step_task (by simp [hcall]) hnext]
    unfold Task.Sees at h
    simp only [hcall] at h
    unfold Task.Sees
    simp only [Task.note, hcall]
    refine ⟨[], [], s.history, ⟨rfl, h.2, fun _ hs => hs, ?_, ?_⟩, ?_⟩
    · intro _
      exact ⟨rfl, rfl, hcursor⟩
    · intro b hb
      simp [h.1] at hb
    · intro sig hsig
      exact hmono sig (hcovered sig hsig)
  | scanList since =>
    unfold Task.Sees at h
    simp only [hcall] at h
    obtain ⟨_, _, rest, hreading, hold⟩ := h
    have hstep : (t.step chain treasury s env).2 = t.readPage chain s.history since := by
      simp only [Task.step, hcall]
    rw [hstep]
    exact hreading.page hcall hnodup fun sig hsig => hmono sig (hold sig hsig)
  | scanNext rest =>
    unfold Task.Sees at h
    simp only [hcall] at h
    obtain ⟨_, hold, hahead⟩ := h
    cases rest with
    | nil =>
      have hnext : (t.call.step chain treasury s.tables env).2 = .retryHeld := by
        rw [hcall, Call.step]
      rw [Task.step_task (by simp [hcall]) hnext]
      trivial
    | cons entry rest =>
      obtain ⟨signature, slot⟩ := entry
      have hat := hahead.next (fun o ho => hmono o (hold o ho)) hfailed
      have hnote : t.note s = t := by simp only [Task.note, hcall]
      cases hfound : (s.tables.findBySignature signature).isSome with
      | true =>
        have hnext : (t.call.step chain treasury s.tables env).2 =
            .scanSave signature slot rest := by
          simp only [hcall, Call.step, hfound, if_true]
        rw [Task.step_task (by simp [hcall]) hnext, hnote]
        exact ⟨hmono signature fun tx htold => .inl (hw.recorded htold hfound), hat⟩
      | false =>
        have hnext : (t.call.step chain treasury s.tables env).2 =
            .scanFetch signature slot rest := by
          simp [hcall, Call.step, hfound]
        rw [Task.step_task (by simp [hcall]) hnext, hnote]
        exact hat
  | scanFetch signature slot rest =>
    unfold Task.Sees at h
    simp only [hcall] at h
    have hat := h.grow hmono []
    have hnote : t.note s = t := by simp only [Task.note, hcall]
    cases htx : treasuryTx chain treasury env signature with
    | missing =>
      have hnext : (t.call.step chain treasury s.tables env).2 = .retryHeld := by
        simp only [hcall, Call.step, htx]
      rw [Task.step_task (by simp [hcall]) hnext]
      trivial
    | inbound txSlot amount signers =>
      have hnext : (t.call.step chain treasury s.tables env).2 =
          .readPrimary signature ⟨txSlot, amount, signers⟩ (.scan slot rest) := by
        simp only [hcall, Call.step, htx]
      rw [Task.step_task (by simp [hcall]) hnext, hnote]
      exact ⟨treasuryTx_told htx, hat⟩
    | _ =>
      have hnext : (t.call.step chain treasury s.tables env).2 =
          .scanSave signature slot rest := by
        simp only [hcall, Call.step, htx]
      rw [Task.step_task (by simp [hcall]) hnext, hnote]
      exact ⟨hfailed signature fun tx => not_told env (by simp [htx]) (by simp [htx]), hat⟩
  | readPrimary signature tx caller =>
    cases caller with
    | confirm => exact Aside.step_sees (by simp [hcall, Aside])
    | scan =>
      unfold Task.Sees at h
      simp only [hcall] at h
      rw [Task.step_eq (by simp [hcall]), hcall]
      simp only [Call.step, Task.note, hcall]
      exact ⟨h.1, h.2.grow hmono [], findOwned_eq_nil⟩
  | readLinked signature tx primary caller =>
    cases caller with
    | confirm => exact Aside.step_sees (by simp [hcall, Aside])
    | scan =>
      unfold Task.Sees at h
      simp only [hcall] at h
      rw [Task.step_eq (by simp [hcall]), hcall]
      simp only [Call.step, Task.note, hcall]
      refine ⟨h.1, h.2.1.grow hmono [], ?_⟩
      intro hnone
      obtain ⟨hset, hlinked⟩ := addOwners_eq_nil hnone
      exact ⟨h.2.2 (setOwners_eq_nil hset).2, findOwned_eq_nil hlinked⟩
  | create signature tx owners caller =>
    cases caller with
    | confirm => exact Aside.step_sees (by simp [hcall, Aside])
    | scan => exact create_sees hcall hw hsteady h
  | findConflict signature caller =>
    cases caller with
    | confirm => exact Aside.step_sees (by simp [hcall, Aside])
    | scan slot rest =>
      unfold Task.Sees at h
      simp only [hcall] at h
      have hnext : (t.call.step chain treasury s.tables env).2 = .scanSave signature slot rest := by
        simp only [hcall, Call.step]
        split <;> rfl
      rw [Task.step_task (by simp [hcall]) hnext]
      simp only [Task.note, hcall]
      exact ⟨hmono signature h.1, h.2.grow hmono []⟩
  | scanSave signature slot rest =>
    unfold Task.Sees at h
    simp only [hcall] at h
    have hnext : (t.call.step chain treasury s.tables env).2 = .scanNext rest := by
      rw [hcall, Call.step]
    rw [Task.step_task (by simp [hcall]) hnext]
    simp only [Task.note, hcall]
    exact (h.2.grow hmono []).done (hmono signature h.1)
  | confirm | confirmFetch | credit | retryHeld | retry | done =>
    exact Aside.step_sees (by simp [hcall, Aside])

/-- The cursor after a step of a task. -/
theorem Task.step_covered (hnodup : s.history.Nodup)
    (hcursor : ∀ c ∈ s.tables.cursor.map Prod.fst, c ∈ s.history)
    (hcovered : ∀ sig ∈ upTo s.history (s.tables.cursor.map Prod.fst),
      Handled chain treasury s.tables s.dust sig)
    (h : t.Sees chain treasury s.history (Handled chain treasury s.tables s.dust)) :
    (∀ c ∈ (t.step chain treasury s env).1.cursor.map Prod.fst, c ∈ s.history) ∧
      ∀ sig ∈ upTo s.history ((t.step chain treasury s env).1.cursor.map Prod.fst),
        t.Handles chain treasury s env sig := by
  have hmono := t.handles_mono chain treasury s env
  by_cases hsave : ∃ signature slot rest, t.call = .scanSave signature slot rest
  · obtain ⟨signature, slot, rest, hcall⟩ := hsave
    have hmoved : (t.step chain treasury s env).1.cursor = some (signature, slot) := by
      rw [Task.step_eq (by simp [hcall]), hcall, Call.step]
    unfold Task.Sees at h
    simp only [hcall] at h
    obtain ⟨hmem, hall⟩ := (h.2.grow hmono []).upTo hnodup (hmono signature h.1)
    rw [hmoved]
    refine ⟨?_, hall⟩
    intro c hc
    cases hc
    exact hmem
  · have hkept : (t.step chain treasury s env).1.cursor = s.tables.cursor := by
      unfold Task.step
      split
      · rfl
      · apply step_cursor
        intro signature slot rest hcall
        exact hsave ⟨signature, slot, rest, hcall⟩
    rw [hkept]
    exact ⟨hcursor, fun sig hsig => hmono sig (hcovered sig hsig)⟩

/-! ## The system -/

abbrev System.Handled (chain : Signature → Option ChainTx) (treasury : Address) (s : System) :
    Signature → Prop :=
  Scan.Handled chain treasury s.tables s.dust

structure Inv (chain : Signature → Option ChainTx) (treasury : Address) (s : System) : Prop where
  nodup : s.history.Nodup
  withdrawn : Withdrawn chain treasury s.tables
  cursor : ∀ c ∈ s.tables.cursor.map Prod.fst, c ∈ s.history
  covered : ∀ sig ∈ upTo s.history (s.tables.cursor.map Prod.fst), s.Handled chain treasury sig
  tasks : ∀ k t, s.tasks.get k = some t →
    t.Sees chain treasury s.history (s.Handled chain treasury)

/-- No scan passes between the two reads over a wallet that is made primary. -/
def Ok (s : System) : Act → Prop
  | .run call env => ∀ t ∈ s.tasks.get call, t.Steady s.tables env
  | _ => True

instance (s : System) : ∀ act, Decidable (Ok s act)
  | .run call env => inferInstanceAs (Decidable (∀ t ∈ s.tasks.get call, t.Steady s.tables env))
  | .start .. | .kill _ | .land _ | .relink .. | .other _ | .withdrawal .. => .isTrue trivial

variable {act : Act}

theorem Inv.kept {tables' : CustodyDb} (h : Inv chain treasury s)
    (hkept : Keeps s.tables tables') (hw : Withdrawn chain treasury tables')
    (hcursor : tables'.cursor = s.tables.cursor) :
    Inv chain treasury { s with tables := tables' } where
  nodup := h.nodup
  withdrawn := hw
  cursor := by
    show ∀ c ∈ tables'.cursor.map Prod.fst, c ∈ s.history
    rw [hcursor]
    exact h.cursor
  covered := by
    show ∀ sig ∈ upTo s.history (tables'.cursor.map Prod.fst), _
    rw [hcursor]
    exact fun sig hsig => (h.covered sig hsig).kept hkept []
  tasks k t ht := (h.tasks k t ht).grow [] (fun _ hsig => hsig.kept hkept []) h.nodup

/-- A withdrawal's row replaces no deposit's. -/
theorem keeps_withdrawal (hmay : tables.mayWrite id row = true) :
    Keeps tables { tables with transfers := tables.transfers.set id row } := by
  intro j old hold hdeposit
  have hne : j ≠ id := by
    rintro rfl
    unfold CustodyDb.mayWrite at hmay
    simp only [Bool.and_eq_true, List.all_eq_true] at hmay
    have hkind := hmay.2 (j, old) (tables.transfers.get_eq_some.mp hold)
    simp [hdeposit] at hkind
  exact ⟨old, (tables.transfers.get_set_ne hne).trans hold, hdeposit, rfl⟩

theorem Withdrawn.withdrawal (h : Withdrawn chain treasury tables)
    (hout : Outgoing chain treasury row) :
    Withdrawn chain treasury { tables with transfers := tables.transfers.set id row } :=
  tables.transfers.forall_set h fun _ => hout

theorem Inv.land (h : Inv chain treasury s) (hnew : signature ∉ s.history) :
    Inv chain treasury { s with history := signature :: s.history } := by
  have hnodup : ([signature] ++ s.history).Nodup := by
    simpa using ⟨hnew, h.nodup⟩
  refine ⟨hnodup, h.withdrawn, ?_, ?_, ?_⟩
  · intro c hc
    exact List.mem_cons_of_mem _ (h.cursor c hc)
  · intro sig hsig
    have hapart : ∀ c ∈ s.tables.cursor.map Prod.fst, c ∉ [signature] := by
      intro c hc hmem
      exact hnew (List.mem_singleton.mp hmem ▸ h.cursor c hc)
    exact h.covered sig (upTo_append hapart ▸ hsig)
  · intro k t ht
    exact (h.tasks k t ht).grow [signature] (fun _ hsig => hsig) hnodup

theorem Inv.step (h : Inv chain treasury s) (hok : Ok s act)
    (hstep : Scan.step chain treasury s act = some s') : Inv chain treasury s' := by
  cases act with
  | start call entry =>
    simp only [Scan.step] at hstep
    split at hstep
    · cases hstep
      refine ⟨h.nodup, h.withdrawn, h.cursor, h.covered, s.tasks.forall_set h.tasks ?_⟩
      cases entry with
      | scan => exact ⟨rfl, rfl⟩
      | _ => trivial
    · cases hstep
  | run call env =>
    simp only [Scan.step] at hstep
    split at hstep
    case h_1 t ht =>
      cases hstep
      have hsees := h.tasks call t ht
      obtain ⟨hcursor, hcovered⟩ := Task.step_covered h.nodup h.cursor h.covered hsees
      refine ⟨h.nodup, h.withdrawn.rewrites (t.step_rewrites s env), hcursor, hcovered, ?_⟩
      apply s.tasks.forall_set (P := fun _ t' =>
        t'.Sees chain treasury s.history (t.Handles chain treasury s env))
      · intro k t' ht'
        exact (h.tasks k t' ht').grow [] (t.handles_mono chain treasury s env) h.nodup
      · exact Task.step_sees h.withdrawn h.nodup h.cursor h.covered (hok t ht) hsees
    case h_2 => cases hstep
  | kill =>
    cases hstep
    exact ⟨h.nodup, h.withdrawn, h.cursor, h.covered, s.tasks.forall_erase h.tasks⟩
  | land =>
    simp only [Scan.step] at hstep
    split at hstep
    case isTrue hnew =>
      cases hstep
      exact h.land hnew.2
    case isFalse => cases hstep
  | relink | other =>
    cases hstep
    exact h.kept (Rewrites.of_eq rfl).kept h.withdrawn rfl
  | withdrawal =>
    simp only [Scan.step] at hstep
    split at hstep
    case isTrue hmay =>
      cases hstep
      exact h.kept (keeps_withdrawal hmay.1) (h.withdrawn.withdrawal hmay.2) rfl
    case isFalse => cases hstep

end Scadium.Custody.Scan
