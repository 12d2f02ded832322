/-
Scadium.Affiliates.Commission — commission is paid at most once.

What is credited and forfeited is what the rows say is claimed, in every run.
A first deposit forfeits the rows of its snapshot that something can be
claimed of; a coin flip may add to another row before it commits. So no
commission of the play account is paid to the funded one exactly as long as
the commit finds nothing else to forfeit (`commission_iff`).
-/
import Scadium.Affiliates.Service

namespace Scadium.Affiliates

open Scadium.Lib Scadium.Prisma

variable {a a' : State} {answer : Answer} {call : Call} {rest : Option Call} {userId : UserId}
  {user : Account} {rows : List (UserId × Row)} {g : Row → Nat}

/-- What the list credits to the user. -/
def total (l : List Credit) (userId : UserId) : Nat :=
  weight Credit.delta (l.filter fun c => c.userId == userId)

def Row.claimedBy (userId : UserId) (r : Row) : Nat :=
  if r.referrerId = userId then r.commissionClaimedLamports else 0

/-- What was credited and forfeited is what was claimed, and no row has more
claimed than it earned. -/
structure Books (a : State) : Prop where
  paid : ∀ userId, total a.ledger userId + total a.forfeited userId =
    a.referrals.sum (Row.claimedBy userId)
  within : ∀ refereeId r, a.referrals.get refereeId = some r →
    r.commissionClaimedLamports ≤ r.commissionLamports

/-- Nothing accrued before a conversion was credited after it, and nothing of
it is left to be claimed. -/
structure Clean (a : State) : Prop where
  unpaid : a.paidLate = 0
  gone : ∀ refereeId r, a.referrals.get refereeId = some r → r.flagged = false →
    a.playEra refereeId = 0

/-- The commit of the conversion goes through. -/
def State.Converts (a : State) (answer : Answer) (userId : UserId) (user : Account) (settled : Nat)
    (unclaimed : List (UserId × Row)) : Prop :=
  answer.failed = false ∧ a.unchanged userId user unclaimed = true ∧ a.settlesOf userId = settled

/-- A conversion commits while it has found every row of the account with
something left to claim. -/
def ForfeitsAll (a : State) (answer : Answer) : Call → Prop
  | .convertCommit userId user settled unclaimed =>
      a.Converts answer userId user settled unclaimed →
        ∀ p ∈ a.referrals.entries, p.2.referrerId = userId → p.2.flagged = false →
          p.2.commissionClaimedLamports < p.2.commissionLamports → p ∈ unclaimed
  | _ => True

instance (a : State) (answer : Answer) (userId : UserId) (user : Account) (settled : Nat)
    (unclaimed : List (UserId × Row)) : Decidable (a.Converts answer userId user settled unclaimed) :=
  inferInstanceAs (Decidable (_ ∧ _ ∧ _))

instance (a : State) (answer : Answer) (call : Call) : Decidable (ForfeitsAll a answer call) :=
  match call with
  | .convertCommit userId user settled unclaimed =>
      inferInstanceAs (Decidable (a.Converts answer userId user settled unclaimed →
        ∀ p ∈ a.referrals.entries, p.2.referrerId = userId → p.2.flagged = false →
          p.2.commissionClaimedLamports < p.2.commissionLamports → p ∈ unclaimed))
  | .register .. | .creditReferral .. | .claim .. | .claimCommit .. | .convert .. | .setBalance .. =>
      .isTrue trivial

/-! ## Rows -/

theorem total_cons (c : Credit) (l : List Credit) :
    total (c :: l) userId = (if c.userId = userId then c.delta else 0) + total l userId := by
  by_cases h : c.userId = userId <;> simp [total, h]

@[simp] theorem unclaimed_advance (r : Row) : r.advance.unclaimed = 0 := Nat.sub_self _

/-- Of the rows of a table, each with its key once. -/
structure RowsOf (t : Table UserId Row) (rows : List (UserId × Row)) : Prop where
  nodup : (rows.map Prod.fst).Nodup
  found : ∀ p ∈ rows, t.get p.1 = some p.2

theorem RowsOf.tail {t : Table UserId Row} {k : UserId} {r : Row} (h : RowsOf t ((k, r) :: rows))
    (r' : Row) : k ∉ rows.map Prod.fst ∧ RowsOf (t.set k r') rows := by
  obtain ⟨hk, hrows⟩ := List.nodup_cons.mp h.nodup
  refine ⟨hk, hrows, ?_⟩
  intro p hp
  have hne : p.1 ≠ k := by
    intro heq
    have hmem : p.1 ∈ rows.map Prod.fst := List.mem_map_of_mem hp
    exact hk (heq ▸ hmem)
  rw [t.get_set_ne hne]
  exact h.found p (List.mem_cons_of_mem _ hp)

theorem sum_advanceAll {t : Table UserId Row} (h : RowsOf t rows) :
    (advanceAll t rows).sum g + weight (fun p => g p.2) rows =
      t.sum g + weight (fun p => g p.2.advance) rows := by
  induction rows generalizing t with
  | nil => rfl
  | cons p rows ih =>
    obtain ⟨k, r⟩ := p
    have htail := ih (h.tail r.advance).2
    have hset := t.sum_set (k := k) (a := r.advance) (g := g)
    rw [h.found (k, r) (List.mem_cons_self ..)] at hset
    simp only [Option.map_some, Option.getD_some] at hset
    simp only [advanceAll, weight_cons]
    omega

theorem get_advanceAll {t : Table UserId Row} (h : RowsOf t rows) (k : UserId) :
    (advanceAll t rows).get k =
      if k ∈ rows.map Prod.fst then (t.get k).map Row.advance else t.get k := by
  induction rows generalizing t with
  | nil => simp [advanceAll]
  | cons p rows ih =>
    obtain ⟨j, r⟩ := p
    obtain ⟨hj, htail⟩ := h.tail r.advance
    have hget : t.get j = some r := h.found (j, r) (List.mem_cons_self ..)
    rw [advanceAll, ih htail]
    by_cases hk : k = j
    · subst hk
      simp [hj, hget]
    · rw [t.get_set_ne hk]
      simp only [List.map_cons, List.mem_cons, hk, false_or]

/-- Every row is as it was, or with nothing left to claim. -/
theorem advanceAll_row {t : Table UserId Row} (h : RowsOf t rows) {k : UserId} {r' : Row}
    (hr' : (advanceAll t rows).get k = some r') :
    ∃ r, t.get k = some r ∧ (k ∈ rows.map Prod.fst ∧ r' = r.advance ∨
      k ∉ rows.map Prod.fst ∧ r' = r) := by
  rw [get_advanceAll h] at hr'
  split at hr'
  · rename_i hmem
    obtain ⟨r, hr, rfl⟩ := Option.map_eq_some_iff.mp hr'
    exact ⟨r, hr, .inl ⟨hmem, rfl⟩⟩
  · rename_i hout
    exact ⟨r', hr', .inr ⟨hout, rfl⟩⟩

/-- What a call in progress has read: rows of its user, each once. -/
def Reads : Call → Prop
  | .claimCommit userId _ rows =>
      (rows.map Prod.fst).Nodup ∧ ∀ p ∈ rows, p.2.referrerId = userId ∧ p.2.flagged = false
  | .convertCommit userId _ _ rows =>
      (rows.map Prod.fst).Nodup ∧ ∀ p ∈ rows, p.2.referrerId = userId
  | _ => True

theorem unclaimedRows_nodup (userId : UserId) (flaggedToo : Bool) :
    ((a.unclaimedRows userId flaggedToo).map Prod.fst).Nodup :=
  (a.referrals.filter _).nodup

theorem mem_unclaimedRows {flaggedToo : Bool} {p : UserId × Row}
    (h : p ∈ a.unclaimedRows userId flaggedToo) :
    p.2.referrerId = userId ∧ (flaggedToo = true ∨ p.2.flagged = false) := by
  have hkeep := (List.mem_filter.mp h).2
  simp only [Bool.and_eq_true, beq_iff_eq, Bool.or_eq_true, Bool.not_eq_true'] at hkeep
  exact hkeep.1

theorem unchanged_ok (h : a.unchanged userId user rows = true)
    (hnodup : (rows.map Prod.fst).Nodup) : RowsOf a.referrals rows := by
  simp only [State.unchanged, Bool.and_eq_true, List.all_eq_true, beq_iff_eq] at h
  exact ⟨hnodup, h.2⟩

/-! ## Steps -/

/-- The rows of referrals and what was paid are as before. -/
structure Same (a a' : State) : Prop where
  referrals : a'.referrals = a.referrals
  ledger : a'.ledger = a.ledger
  forfeited : a'.forfeited = a.forfeited
  playEra : a'.playEra = a.playEra
  paidLate : a'.paidLate = a.paidLate

theorem Same.refl (a : State) : Same a a := ⟨rfl, rfl, rfl, rfl, rfl⟩

/-- A settle writes one row: its claimed part and its referrer stay, and it
stays flagged. -/
structure Accrues (a a' : State) : Prop where
  row : ∃ refereeId r', a'.referrals = a.referrals.set refereeId r' ∧
    match a.referrals.get refereeId with
    | none => r'.commissionClaimedLamports = 0
    | some r => r'.referrerId = r.referrerId ∧
        r'.commissionClaimedLamports = r.commissionClaimedLamports ∧
        r.commissionLamports ≤ r'.commissionLamports ∧ (r'.flagged = false → r.flagged = false)
  ledger : a'.ledger = a.ledger
  forfeited : a'.forfeited = a.forfeited
  playEra : a'.playEra = a.playEra
  paidLate : a'.paidLate = a.paidLate

theorem creditReferral_cases {refereeId : UserId} {stakeLamports : Nat} {serializable : Bool} :
    Same a (a.creditReferral answer refereeId stakeLamports serializable) ∨
      Accrues a (a.creditReferral answer refereeId stakeLamports serializable) := by
  unfold State.creditReferral
  split
  · exact .inl (.refl a)
  · split
    · exact .inl (.refl a)
    · split
      · exact .inl (.refl a)
      · refine .inr ⟨⟨refereeId, _, rfl, ?_⟩, rfl, rfl, rfl, rfl⟩
        cases a.referrals.get refereeId with
        | none => rfl
        | some => exact ⟨rfl, rfl, Nat.le_add_right .., fun hf => (Bool.or_eq_false_iff.mp hf).1⟩

/-- What a step writes. -/
theorem step_cases (hstep : call.step a answer = (a', rest)) :
    (Same a a' ∨ Accrues a a') ∧
      (∀ userId user settled rows, call = .convertCommit userId user settled rows →
        ¬ a.Converts answer userId user settled rows) ∨
    (∃ userId user rows, call = .claimCommit userId user rows ∧
      a.unchanged userId user rows = true ∧ a' = a.claimCommit userId user rows) ∨
    ∃ userId user settled rows, call = .convertCommit userId user settled rows ∧
      a.Converts answer userId user settled rows ∧
      a' = a.convertCommit answer.now userId user rows := by
  have hread : ∀ {r : Option Call}, (a, r) = (a', rest) → Same a a' := by
    intro r heq
    cases heq
    exact .refl a
  cases call with
  | register | setBalance =>
    simp only [Call.step] at hstep
    split at hstep
    · exact .inl ⟨.inl (hread hstep), by simp⟩
    · cases hstep
      exact .inl ⟨.inl ⟨rfl, rfl, rfl, rfl, rfl⟩, by simp⟩
  | creditReferral =>
    cases hstep
    exact .inl ⟨creditReferral_cases, by simp⟩
  | claim userId | convert userId =>
    simp only [Call.step] at hstep
    split at hstep
    · exact .inl ⟨.inl (hread hstep), by simp⟩
    · split at hstep
      · exact .inl ⟨.inl (hread hstep), by simp⟩
      · exact .inl ⟨.inl (hread hstep), by simp⟩
  | claimCommit userId user rows =>
    simp only [Call.step] at hstep
    split at hstep
    · exact .inl ⟨.inl (hread hstep), by simp⟩
    · rename_i hcommits
      cases hstep
      simp only [not_or, Bool.not_eq_true, Bool.not_eq_false'] at hcommits
      exact .inr (.inl ⟨userId, user, rows, rfl, hcommits.2, rfl⟩)
  | convertCommit userId user settled rows =>
    simp only [Call.step] at hstep
    split at hstep
    · rename_i hrefused
      refine .inl ⟨.inl (hread hstep), ?_⟩
      intro _ _ _ _ heq hcommits
      cases heq
      obtain ⟨hfailed, hsame, hsettled⟩ := hcommits
      simp [hfailed, hsame, hsettled] at hrefused
    · rename_i hcommits
      cases hstep
      simp only [not_or, Bool.not_eq_true, Bool.not_eq_false', ne_eq, not_not] at hcommits
      exact .inr (.inr ⟨userId, user, settled, rows, rfl, hcommits, rfl⟩)

theorem Reads.goes {call' : Call} (hstep : call.step a answer = (a', some call')) : Reads call' := by
  cases call with
  | claim userId =>
    simp only [Call.step] at hstep
    split at hstep
    · cases hstep
    · split at hstep
      · cases hstep
      · cases hstep
        refine ⟨unclaimedRows_nodup userId false, fun p hp => ?_⟩
        obtain ⟨hreferrer, hflagged⟩ := mem_unclaimedRows hp
        exact ⟨hreferrer, by simpa using hflagged⟩
  | convert userId =>
    simp only [Call.step] at hstep
    split at hstep
    · cases hstep
    · split at hstep
      · cases hstep
      · cases hstep
        exact ⟨unclaimedRows_nodup userId true, fun p hp => (mem_unclaimedRows hp).1⟩
  | claimCommit userId user rows | convertCommit userId user settled rows
  | register userId referredById signupIpHash | setBalance userId playBalanceLamports =>
    simp only [Call.step] at hstep
    split at hstep
    all_goals cases hstep
  | creditReferral => cases hstep

/-! ## Books -/

theorem Books.accrues (h : Books a) (haccrues : Accrues a a') : Books a' := by
  obtain ⟨⟨refereeId, r', hreferrals, hrow⟩, hledger, hforfeited, -, -⟩ := haccrues
  constructor
  · intro userId
    rw [hledger, hforfeited, hreferrals, h.paid userId]
    have hset := a.referrals.sum_set (k := refereeId) (a := r') (g := Row.claimedBy userId)
    cases hold : a.referrals.get refereeId with
    | none =>
      rw [hold] at hrow hset
      have hzero : r'.claimedBy userId = 0 := by simp [Row.claimedBy, show _ = _ from hrow]
      simp only [Option.map_none, Option.getD_none] at hset
      omega
    | some r =>
      rw [hold] at hrow hset
      have hsame : r'.claimedBy userId = r.claimedBy userId := by
        rw [Row.claimedBy, Row.claimedBy, hrow.1, hrow.2.1]
      simp only [Option.map_some, Option.getD_some] at hset
      omega
  · rw [hreferrals]
    refine a.referrals.forall_set h.within ?_
    cases hold : a.referrals.get refereeId with
    | none =>
      rw [hold] at hrow
      rw [show r'.commissionClaimedLamports = 0 from hrow]
      exact Nat.zero_le _
    | some r =>
      rw [hold] at hrow
      rw [hrow.2.1]
      exact (h.within refereeId r hold).trans hrow.2.2.1

/-- The rows that are written move what was unclaimed of them. -/
theorem Books.weight_advance (h : Books a) (hrows : RowsOf a.referrals rows)
    (hof : ∀ p ∈ rows, p.2.referrerId = userId) (other : UserId) :
    weight (fun p => p.2.advance.claimedBy other) rows =
      weight (fun p => p.2.claimedBy other) rows +
        if userId = other then weight (fun p => p.2.unclaimed) rows else 0 := by
  by_cases heq : userId = other
  · subst heq
    rw [if_pos rfl, ← weight_add]
    refine weight_congr ?_
    intro p hp
    have hle := h.within p.1 p.2 (hrows.found p hp)
    simp only [Row.claimedBy, Row.advance, Row.unclaimed, hof p hp, if_true]
    omega
  · rw [if_neg heq, Nat.add_zero]
    refine weight_congr ?_
    intro p hp
    simp [Row.claimedBy, Row.advance, hof p hp, heq]

theorem Books.advance (h : Books a) (hrows : RowsOf a.referrals rows)
    (hof : ∀ p ∈ rows, p.2.referrerId = userId)
    (hreferrals : a'.referrals = advanceAll a.referrals rows)
    (hpaid : ∀ other, total a'.ledger other + total a'.forfeited other =
      (if userId = other then weight (fun p => p.2.unclaimed) rows else 0) +
        (total a.ledger other + total a.forfeited other)) : Books a' := by
  constructor
  · intro other
    rw [hpaid, hreferrals, h.paid other]
    have hsum := sum_advanceAll (g := Row.claimedBy other) hrows
    have hweight := h.weight_advance hrows hof other
    omega
  · rw [hreferrals]
    intro refereeId r' hr'
    obtain ⟨r, hr, ⟨-, rfl⟩ | ⟨-, rfl⟩⟩ := advanceAll_row hrows hr'
    · exact le_rfl
    · exact h.within refereeId r' hr

theorem Books.step (h : Books a) (hreads : Reads call) (hstep : call.step a answer = (a', rest)) :
    Books a' := by
  rcases step_cases hstep with ⟨hsame | haccrues, -⟩ | ⟨userId, user, rows, rfl, hfound, rfl⟩ |
    ⟨userId, user, settled, rows, rfl, ⟨-, hfound, -⟩, rfl⟩
  · exact ⟨by rw [hsame.referrals, hsame.ledger, hsame.forfeited]; exact h.paid,
      by rw [hsame.referrals]; exact h.within⟩
  · exact h.accrues haccrues
  · refine h.advance (unchanged_ok hfound hreads.1) (fun p hp => (hreads.2 p hp).1) rfl ?_
    intro other
    simp only [State.claimCommit, total_cons]
    omega
  · refine h.advance (unchanged_ok hfound hreads.1) hreads.2 rfl ?_
    intro other
    simp only [State.convertCommit, total_cons]
    omega

/-- Where there is no row, nothing was left of it. -/
def Known (a : State) : Prop := ∀ refereeId, a.referrals.get refereeId = none → a.playEra refereeId = 0

theorem Known.step (h : Known a) (hreads : Reads call) (hstep : call.step a answer = (a', rest)) :
    Known a' := by
  have hadvance : ∀ {rows : List (UserId × Row)} {refereeId : UserId}, RowsOf a.referrals rows →
      (advanceAll a.referrals rows).get refereeId = none → a.playEra refereeId = 0 := by
    intro rows refereeId hrows hnone
    refine h refereeId ?_
    rw [get_advanceAll hrows] at hnone
    split at hnone
    · exact Option.map_eq_none_iff.mp hnone
    · exact hnone
  intro refereeId hnone
  rcases step_cases hstep with ⟨hsame | haccrues, -⟩ | ⟨userId, user, rows, rfl, hfound, rfl⟩ |
    ⟨userId, user, settled, rows, rfl, ⟨-, hfound, -⟩, rfl⟩
  · rw [hsame.playEra]
    exact h refereeId (hsame.referrals ▸ hnone)
  · obtain ⟨⟨k, _, hreferrals, -⟩, -, -, hplay, -⟩ := haccrues
    rw [hplay]
    refine h refereeId ?_
    rw [hreferrals] at hnone
    by_cases hk : refereeId = k
    · subst hk
      simp at hnone
    · rwa [a.referrals.get_set_ne hk] at hnone
  · have hzero := hadvance (unchanged_ok hfound hreads.1) hnone
    simp [State.claimCommit, hzero]
  · have hzero := hadvance (unchanged_ok hfound hreads.1) hnone
    simp only [State.convertCommit] at hnone ⊢
    rw [hnone]
    exact hzero

def commissionProtocol : Calls.Protocol service where
  Inv a := Books a ∧ Known a
  Holds _ call := Reads call
  starts := by
    intro a call _ hentry
    cases call with
    | claimCommit | convertCommit => cases hentry
    | _ => trivial
  keeps h hreads hstep :=
    ⟨h.1.step hreads (Option.some.inj hstep), h.2.step hreads (Option.some.inj hstep)⟩
  goes _ _ hstep := Reads.goes (Option.some.inj hstep)
  stable _ _ _ h := h

/-! ## Runs -/

theorem clean_step (h : Known a) (hclean : Clean a) (hreads : Reads call)
    (hstep : call.step a answer = (a', rest)) : Clean a' ↔ ForfeitsAll a answer call := by
  rcases step_cases hstep with ⟨hwrites, hrefused⟩ | ⟨userId, user, rows, rfl, hfound, rfl⟩ |
    ⟨userId, user, settled, rows, rfl, hcommits, rfl⟩
  · refine ⟨fun _ => ?_, fun _ => ?_⟩
    · cases call with
      | convertCommit userId user settled rows =>
        exact fun hcommits => absurd hcommits (hrefused userId user settled rows rfl)
      | _ => trivial
    · rcases hwrites with hsame | ⟨⟨k, r', hreferrals, hrow⟩, -, -, hplay, hpaid⟩
      · refine ⟨hsame.paidLate ▸ hclean.unpaid, ?_⟩
        rw [hsame.referrals, hsame.playEra]
        exact hclean.gone
      · refine ⟨hpaid ▸ hclean.unpaid, ?_⟩
        rw [hreferrals, hplay]
        refine a.referrals.forall_set hclean.gone ?_
        intro hflagged
        cases hold : a.referrals.get k with
        | none => exact h k hold
        | some r =>
          rw [hold] at hrow
          exact hclean.gone k r hold (hrow.2.2.2 hflagged)
  · refine ⟨fun _ => trivial, fun _ => ?_⟩
    have hrows := unchanged_ok hfound hreads.1
    constructor
    · have hzero : weight (fun p => a.playEra p.1) rows = 0 := by
        refine weight_eq_zero ?_
        intro p hp
        exact hclean.gone p.1 p.2 (hrows.found p hp) (hreads.2 p hp).2
      simp [State.claimCommit, hclean.unpaid, hzero]
    · intro refereeId r' hr' hflagged
      simp only [State.claimCommit] at hr' ⊢
      split
      · rfl
      · obtain ⟨r, hr, ⟨-, rfl⟩ | ⟨-, rfl⟩⟩ := advanceAll_row hrows hr'
        · exact hclean.gone refereeId r hr hflagged
        · exact hclean.gone refereeId r' hr hflagged
  · have hrows := unchanged_ok hcommits.2.1 hreads.1
    have hplay : ∀ {refereeId : UserId} {r' : Row},
        (advanceAll a.referrals rows).get refereeId = some r' →
        (a.convertCommit answer.now userId user rows).playEra refereeId =
          if r'.referrerId = userId then r'.unclaimed else a.playEra refereeId := by
      intro refereeId r' hr'
      simp only [State.convertCommit, hr']
    constructor
    · intro hclean' _ p hp hreferrer hflagged hlt
      -- a row that was not found keeps what is unclaimed of it
      have hget := a.referrals.get_eq_some.mpr hp
      by_cases hmem : p.1 ∈ rows.map Prod.fst
      · obtain ⟨q, hq, heq⟩ := List.mem_map.mp hmem
        have hqget := hrows.found q hq
        rw [heq, hget] at hqget
        rwa [show p = q from Prod.ext heq.symm (Option.some.inj hqget)]
      · have hr' : (advanceAll a.referrals rows).get p.1 = some p.2 := by
          rw [get_advanceAll hrows, if_neg hmem, hget]
        have hzero := hclean'.gone p.1 p.2 hr' hflagged
        rw [hplay hr', if_pos hreferrer, Row.unclaimed] at hzero
        omega
    · intro hall
      refine ⟨hclean.unpaid, ?_⟩
      intro refereeId r' hr' hflagged
      rw [hplay hr']
      obtain ⟨r, hr, ⟨-, rfl⟩ | ⟨hout, rfl⟩⟩ := advanceAll_row hrows hr'
      · split
        · exact unclaimed_advance r
        · exact hclean.gone refereeId r hr hflagged
      · split
        · rename_i hreferrer
          refine Nat.sub_eq_zero_of_le (Nat.le_of_not_lt fun hlt => hout ?_)
          have hfound := hall hcommits (refereeId, r') (a.referrals.get_eq_some.mp hr) hreferrer
            hflagged hlt
          exact List.mem_map_of_mem hfound
        · exact hclean.gone refereeId r' hr hflagged

/-- In every run what was credited and forfeited is what was claimed, of no
row more than it earned; and no commission of a play account is or can be
paid to the funded one, in every state of a run, exactly if every conversion
commits while it has found all there is to forfeit. -/
theorem commission_iff {es : List (Calls.Event Call Answer)} {s : Calls.System State Call}
    (hrun : run service.next (.boot .initial) es = some s) :
    Throughout service.next (.boot .initial) es (fun s => Books s.data) ∧
      (Throughout service.next (.boot .initial) es (fun s => Clean s.data) ↔
        Along service.next (Calls.Allowed ForfeitsAll) (.boot .initial) es) := by
  have hinv : commissionProtocol.Inv .initial :=
    ⟨⟨fun _ => rfl, nofun⟩, fun _ _ => rfl⟩
  constructor
  · intro fs gs s' _ hrun'
    exact (commissionProtocol.sound hinv hrun').inv.1
  · refine commissionProtocol.throughout_iff (φ := Clean)
      (fun h hreads hclean hstep => clean_step h.2 hclean hreads (Option.some.inj hstep)) hinv ?_ hrun
    exact ⟨rfl, nofun⟩

namespace Sample

def cut (commission : Nat) : Answer := ⟨0, true, commission, false⟩

/-- A call that takes the given number of steps. -/
def complete (id : Nat) (call : Call) (steps commission : Nat) : List (Calls.Event Call Answer) :=
  .start id call :: List.replicate steps (.run id (cut commission))

def accounts : List (Calls.Event Call Answer) :=
  complete 1 (.register 1 none none) 1 0 ++ complete 1 (.register 2 (some 1) none) 1 0

/-- Commission is claimed, more accrues, and a first deposit forfeits it. -/
def forfeits : List (Calls.Event Call Answer) :=
  accounts ++ complete 1 (.creditReferral 2 100 false) 1 5 ++ complete 1 (.claim 1) 2 0 ++
    complete 1 (.creditReferral 2 100 true) 1 3 ++ complete 1 (.convert 1) 2 0

/-- A coin flip settles between the snapshot of a first deposit and its
commit, and the commission is claimed. -/
def flipSettles : List (Calls.Event Call Answer) :=
  accounts ++ complete 1 (.convert 1) 1 0 ++ complete 2 (.creditReferral 2 100 false) 1 5 ++
    [.run 1 (cut 0)] ++ complete 2 (.claim 1) 2 0

end Sample

theorem commission_iff_sample : ∃ s, run service.next (.boot .initial) Sample.forfeits = some s ∧
    s.data.ledger = [⟨1, 5⟩] ∧ s.data.forfeited = [⟨1, 3⟩] ∧ Books s.data ∧ Clean s.data := by
  obtain ⟨s, hs, hledger, hforfeited⟩ : ∃ s,
      run service.next (.boot .initial) Sample.forfeits = some s ∧ s.data.ledger = [⟨1, 5⟩] ∧
      s.data.forfeited = [⟨1, 3⟩] := by decide +kernel
  obtain ⟨hbooks, hclean⟩ := commission_iff hs
  refine ⟨s, hs, hledger, hforfeited, hbooks _ [] s (List.append_nil _).symm hs, ?_⟩
  exact hclean.mpr (by decide +kernel) Sample.forfeits [] s (List.append_nil _).symm hs

/-- What accrued before the first deposit is paid to the funded account. -/
theorem paid_late : ∃ s, run service.next (.boot .initial) Sample.flipSettles = some s ∧
    s.data.ledger = [⟨1, 5⟩] ∧ s.data.forfeited = [⟨1, 0⟩] ∧ s.data.paidLate = 5 := by
  decide +kernel

end Scadium.Affiliates
