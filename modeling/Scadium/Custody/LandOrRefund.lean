/-
Scadium.Custody.LandOrRefund — withdrawals over whole runs.

The invariant of the calls is kept by what the chain does too, and so by every
run in which signatures land in time and late status queries see them. In such
a run a withdrawal pays once or is refunded once, never both.
-/
import Scadium.Custody.WithdrawalTheorems

namespace Scadium.Custody.Withdrawal

open Scadium.Lib Scadium.Prisma

variable {memo : Signature → TransferId} {expiry : Signature → Nat} {margin : Nat}
  {w : World} {env : Env} {id : TransferId} {sig : Signature}

/-! ## The chain -/

/-- Giving a transaction to the network changes no fate. -/
theorem Stepped.give {delivered : Bool} (ht : Tracks memo expiry w) (hr : Refunds w.tables)
    (h : Tracked memo expiry w sig) {next : Call} (hnext : next.Honest memo expiry w) :
    Stepped memo expiry w ⟨w.tables, w.chain.give delivered sig⟩ next := by
  cases delivered with
  | false => exact .stay ht hr hnext
  | true =>
    have hlater : Later memo expiry w ⟨w.tables, w.chain.give true sig⟩ :=
      ⟨fun _ _ h => h, fun _ h => h, fun _ h => h, fun _ h => h, le_rfl⟩
    refine ⟨⟨?_, ?_, ?_⟩, hr, hlater, hnext.later hlater⟩
    · intro id row hrow hkind
      have hsound := ht.rows id row hrow hkind
      exact ⟨hsound.status, hsound.pending, hsound.sent, hsound.confirmed⟩
    · intro sig' hsig'
      cases List.mem_cons.mp hsig' with
      | inl heq => exact heq ▸ h
      | inr hold => exact ht.tracked sig' hold
    · intro sig' failed hlanded
      exact List.mem_cons_of_mem sig (ht.landed sig' failed hlanded)

theorem Call.stepped_onChain (c : Call) (ht : Tracks memo expiry w) (hr : Refunds w.tables)
    (hc : c.Honest memo expiry w) (hanswered : c.answered memo expiry w.chain env = true)
    (hsees : c.seesLanded expiry margin w.chain env = true) :
    Stepped memo expiry w ⟨(c.onTables margin w.tables env).1, c.onChain w.chain env⟩
      (c.onTables margin w.tables env).2 := by
  cases c with
  | broadcast => exact .give ht hr hc trivial
  | _ => exact Call.stepped _ ht hr hc hanswered hsees

/-- A transaction lands in time: it was alive. -/
theorem Tracks.land (ht : Tracks memo expiry w) (failed : Bool)
    (hsent : sig ∈ w.chain.sent) (hnew : w.chain.landed.get sig = none)
    (htime : w.chain.height ≤ expiry sig) :
    Tracks memo expiry { w with chain.landed := w.chain.landed.set sig failed } ∧
      Later memo expiry w { w with chain.landed := w.chain.landed.set sig failed } := by
  have hother : ∀ sig', sig' ≠ sig →
      (w.chain.landed.set sig failed).get sig' = w.chain.landed.get sig' :=
    fun sig' hne => w.chain.landed.get_set_ne hne
  have hpaid : ∀ sig', w.chain.Paid sig' →
      (w.chain.landed.set sig failed).get sig' = some false := by
    intro sig' h
    rw [hother sig', h]
    intro heq
    rw [heq, Chain.Paid, hnew] at h
    cases h
  have hdead : ∀ sig', w.chain.Dead expiry sig' → sig' ≠ sig := by
    intro sig' h heq
    subst heq
    cases h with
    | inl hfailed =>
      rw [hnew] at hfailed
      cases hfailed
    | inr => omega
  have hlater : Later memo expiry w
      { w with chain.landed := w.chain.landed.set sig failed } := by
    refine ⟨fun _ _ h => h, ?_, hpaid, ?_, le_rfl⟩
    · intro sig' h
      unfold Chain.Dead
      rw [hother sig' (hdead sig' h)]
      exact h
    · intro sig' h
      cases h with
      | inl h =>
        left
        unfold Chain.Dead
        rw [hother sig' (hdead sig' h)]
        exact h
      | inr hcurrent => exact .inr hcurrent
  refine ⟨⟨?_, ?_, ?_⟩, hlater⟩
  · intro id row hrow hkind
    have hsound := ht.rows id row hrow hkind
    exact ⟨hsound.status, hsound.pending, hsound.sent,
      fun h => ⟨hpaid _ (hsound.confirmed h).1, (hsound.confirmed h).2⟩⟩
  · intro sig' hsig'
    exact hlater.tracked sig' (ht.tracked sig' hsig')
  · exact w.chain.landed.forall_set ht.landed hsent

theorem Tracks.advance {height finalized : Nat} (ht : Tracks memo expiry w)
    (final : finalized ≤ height) (hheight : w.chain.height ≤ height)
    (hfinal : w.chain.finalized ≤ finalized) :
    Tracks memo expiry ⟨w.tables, height, finalized, final, w.chain.sent, w.chain.landed⟩ ∧
      Later memo expiry w ⟨w.tables, height, finalized, final, w.chain.sent, w.chain.landed⟩ := by
  have hdead : ∀ sig, w.chain.Dead expiry sig →
      Chain.Dead expiry ⟨height, finalized, final, w.chain.sent, w.chain.landed⟩ sig := by
    intro sig h
    cases h with
    | inl hfailed => exact .inl hfailed
    | inr hexpired => exact .inr ⟨hexpired.1, hexpired.2.trans_le hheight⟩
  have hlater : Later memo expiry w
      ⟨w.tables, height, finalized, final, w.chain.sent, w.chain.landed⟩ :=
    ⟨fun _ _ h => h, hdead, fun _ h => h, fun sig h => h.imp_left (hdead sig), hfinal⟩
  refine ⟨⟨?_, ?_, ht.landed⟩, hlater⟩
  · intro id row hrow hkind
    have hsound := ht.rows id row hrow hkind
    exact ⟨hsound.status, hsound.pending, hsound.sent, hsound.confirmed⟩
  · intro sig hsig
    exact hlater.tracked sig (ht.tracked sig hsig)

/-! ## Runs -/

structure System.Sound (memo : Signature → TransferId) (expiry : Signature → Nat) (s : System) :
    Prop where
  tracks : Tracks memo expiry s.world
  refunds : Refunds s.world.tables
  calls : ∀ id c, s.calls.get id = some c → c.Honest memo expiry s.world

/-- What a call is left with when it throws. -/
theorem threw_call_honest (c : Call) (h : c.Honest memo expiry w) :
    c.threw.Honest memo expiry w := by
  cases c with
  | broadcast => trivial
  | _ => first | exact threw_honest .. | trivial

/-- One step keeps the invariant. -/
theorem step_sound {s s' : System} {act : Act} (hassumed : Assumed expiry margin s act)
    (h : s.Sound memo expiry) (hstep : step memo expiry margin s act = some s') :
    s'.Sound memo expiry := by
  cases act with
  | start call entry =>
    simp only [step] at hstep
    split at hstep
    · cases hstep
      refine ⟨h.tracks, h.refunds, s.calls.forall_set h.calls ?_⟩
      cases entry <;> trivial
    · cases hstep
  | run call env =>
    simp only [step] at hstep
    split at hstep
    case h_1 c hc =>
      split at hstep
      case isTrue hanswered =>
        cases hstep
        have hsees : c.seesLanded expiry margin s.world.chain env = true := by
          simpa [Assumed, hc] using hassumed
        have hnext := c.stepped_onChain h.tracks h.refunds (h.calls call c hc) hanswered hsees
        exact ⟨hnext.tracks, hnext.refunds,
          s.calls.forall_set (fun id c hc => (h.calls id c hc).later hnext.later) hnext.honest⟩
      case isFalse => cases hstep
    case h_2 => cases hstep
  | throws call =>
    simp only [step] at hstep
    split at hstep
    case h_1 c hc =>
      cases hstep
      exact ⟨h.tracks, h.refunds,
        s.calls.forall_set h.calls (threw_call_honest c (h.calls call c hc))⟩
    case h_2 => cases hstep
  | kill =>
    cases hstep
    exact ⟨h.tracks, h.refunds, s.calls.forall_erase h.calls⟩
  | land signature failed =>
    simp only [step] at hstep
    split at hstep
    case isTrue hland =>
      cases hstep
      obtain ⟨htracks, hlater⟩ := h.tracks.land failed hland.1 hland.2 hassumed
      exact ⟨htracks, h.refunds, fun id c hc => (h.calls id c hc).later hlater⟩
    case isFalse => cases hstep
  | advance =>
    simp only [step] at hstep
    split at hstep
    case isTrue hmono =>
      cases hstep
      obtain ⟨htracks, hlater⟩ := h.tracks.advance hmono.2.2 hmono.1 hmono.2.1
      exact ⟨htracks, h.refunds, fun id c hc => (h.calls id c hc).later hlater⟩
    case isFalse => cases hstep
  | relink primary linked =>
    cases hstep
    have hlater : Later memo expiry s.world { s.world with
        tables := { s.world.tables with primary := primary, linked := linked } } :=
      ⟨fun _ _ h => h, fun _ h => h, fun _ h => h, fun _ h => h, le_rfl⟩
    exact ⟨⟨h.tracks.rows, h.tracks.tracked, h.tracks.landed⟩,
      ⟨h.refunds.once, h.refunds.ledger, h.refunds.failed⟩,
      fun id c hc => (h.calls id c hc).later hlater⟩
  | other db =>
    simp only [step] at hstep
    split at hstep
    case isTrue hrows =>
      cases hstep
      have hlater : Later memo expiry s.world { s.world with tables.db := db } :=
        ⟨fun _ _ h => h, fun _ h => h, fun _ h => h, fun _ h => h, le_rfl⟩
      exact ⟨⟨h.tracks.rows, h.tracks.tracked, h.tracks.landed⟩,
        ⟨hrows ▸ h.refunds.once, hrows ▸ h.refunds.ledger, hrows ▸ h.refunds.failed⟩,
        fun id c hc => (h.calls id c hc).later hlater⟩
    case isFalse => cases hstep
  | deposit id row =>
    simp only [step] at hstep
    split at hstep
    case isTrue hmay =>
      cases hstep
      simp only [mayWrite, Bool.and_eq_true, decide_eq_true_eq] at hmay
      have hold : ∀ old, s.world.tables.transfers.get id = some old → old.kind = .deposit := by
        intro old hrow
        simpa [hrow] using hmay.2
      have hwrite : Write memo expiry s.world id row := by
        constructor
        · intro old hrow hkind
          rw [hold old hrow] at hkind
          cases hkind
        · simp [hmay.1]
        · intro sig hcurrent
          obtain ⟨old, hrow, hkind, -⟩ := hcurrent
          rw [hold old hrow] at hkind
          cases hkind
      have hlater : Later memo expiry s.world { s.world with
          tables.transfers := s.world.tables.transfers.set id row } := hwrite.later rfl rfl
      refine ⟨h.tracks.write hwrite rfl rfl, h.refunds.write ?_ (by simp [hmay.1]),
        fun id c hc => (h.calls id c hc).later hlater⟩
      intro old hrow hkind
      rw [hold old hrow] at hkind
      cases hkind
    case isFalse => cases hstep

theorem run_sound {db : Db} {primary linked : Table Address UserId} {acts : List Act} {s : System}
    (hfresh : refundRows db = [])
    (hassumed : Along (step memo expiry margin) (Assumed expiry margin)
      (.initial db primary linked) acts)
    (hrun : run (step memo expiry margin) (.initial db primary linked) acts = some s) :
    s.Sound memo expiry := by
  refine run_induct (P := fun s => s.Sound memo expiry) ?_ ?_ hassumed hrun
  · intro s act s' hassumed h hstep
    exact step_sound hassumed h hstep
  · refine ⟨⟨?_, ?_, ?_⟩, ⟨?_, ?_, ?_⟩, ?_⟩ <;> simp [System.initial, hfresh]

/-! ## Lands or is refunded -/

/-- A signature that paid is the one its row holds. -/
theorem System.Sound.current {s : System} (h : s.Sound memo expiry)
    (hpaid : s.world.chain.Paid sig) : Current s.world.tables (memo sig) sig := by
  cases h.tracks.tracked sig (h.tracks.landed sig false hpaid) with
  | inl hdead => exact absurd hpaid hdead.not_paid
  | inr hcurrent => exact hcurrent

/-- Nothing that was refunded has paid. -/
theorem System.Sound.not_paid {s : System} (h : s.Sound memo expiry) {r : BalanceLedger}
    (hr : r ∈ refundRows s.world.tables.db) (hid : r.refId = some id) (hmemo : memo sig = id) :
    ¬s.world.chain.Paid sig := by
  intro hpaid
  obtain ⟨j, _, hj, hrow, hrefunded⟩ := h.refunds.ledger r hr
  rw [hid, Option.some.injEq] at hj
  have hholds := (h.current hpaid).holds (hmemo.trans hj ▸ hrow)
  simp [Holds, hrefunded.status] at hholds

/-- At most one transaction of a withdrawal ever lands without an error; it is
refunded at most once and then none does; and once it is settled it has been
refunded, with what was debited, exactly if none did. -/
theorem withdrawals_land_or_refund {db : Db} {primary linked : Table Address UserId}
    {acts : List Act} {s : System} (hfresh : refundRows db = [])
    (hassumed : Along (step memo expiry margin) (Assumed expiry margin)
      (.initial db primary linked) acts)
    (hrun : run (step memo expiry margin) (.initial db primary linked) acts = some s) :
    (∀ sig sig', memo sig = memo sig' → s.world.chain.Paid sig → s.world.chain.Paid sig' →
      sig = sig') ∧
    ((refundRows s.world.tables.db).map BalanceLedger.refId).Nodup ∧
    (∀ r ∈ refundRows s.world.tables.db, ∀ sig, r.refId = some (memo sig) →
      ¬s.world.chain.Paid sig) ∧
    ∀ id row, s.world.tables.transfers.get id = some row → row.kind = .withdraw →
      ¬inFlight row →
      ((∃ r ∈ refundRows s.world.tables.db, r.refId = some id ∧ row.userId = some r.userId ∧
        r.delta = row.amountLamports) ↔ ∀ sig, memo sig = id → ¬s.world.chain.Paid sig) := by
  have h := run_sound hfresh hassumed hrun
  refine ⟨?_, h.refunds.once, fun r hr sig hid => h.not_paid hr hid rfl, ?_⟩
  · intro sig sig' hmemo hpaid hpaid'
    obtain ⟨row, hrow, -, -, hsig⟩ := h.current hpaid
    have hholds := (h.current hpaid').holds (hmemo ▸ hrow)
    exact Option.some.inj (hsig.symm.trans hholds.2)
  · intro id row hrow hkind hover
    constructor
    · rintro ⟨r, hr, hid, -⟩ _ hmemo
      exact h.not_paid hr hid hmemo
    · intro hnone
      have hsound := h.tracks.rows id row hrow hkind
      have hfailed : row.status = .failed := by
        cases hsound.status.resolve_left hover with
        | inl hconfirmed =>
          obtain ⟨hpaid, hmemo⟩ := hsound.confirmed hconfirmed
          exact absurd hpaid (hnone _ hmemo)
        | inr hfailed => exact hfailed
      obtain ⟨r, hr, hid⟩ := h.refunds.failed id row hrow hkind hfailed
      obtain ⟨j, _, hj, hrow', hrefunded⟩ := h.refunds.ledger r hr
      rw [hid, Option.some.injEq] at hj
      subst hj
      rw [hrow, Option.some.injEq] at hrow'
      subst hrow'
      exact ⟨r, hr, hid, hrefunded.user, hrefunded.amount⟩

namespace Sample

def ada : User :=
  ⟨some "ada", "ada", false, some 1, none, none, fun _ => 100, 0, 0, 0, 0, 0⟩

def db : Db := { Db.empty with users := fun u => if u = 7 then some ada else none }

/-- All are of the one row. -/
def rowOf : Signature → TransferId := fun _ => 0

def lastHeight : Signature → Nat := fun _ => 200

def answers (signature : Signature) (failed : Bool) : Env where
  minWithdrawLamports := 10
  maxWithdrawLamports := 1000
  dailyWithdrawLamports := 1000
  feeReserveLamports := 1
  withdrawMaxAttempts := 5
  paused := false
  replay := none
  today _ := true
  newId := 0
  balance := 500
  signed := ⟨signature, 200⟩
  delivered := true
  finalizedBlockHeight := 0
  signatureState := ⟨true, failed, true, some 3⟩
  goOn := true

def init : System := .initial db .empty .empty

/-- The first signature lands with an error, the second without. -/
def acts : List Act :=
  .start 0 (.request 7 50 none) :: List.replicate 8 (.run 0 (answers "first" true)) ++
  .land "first" true :: List.replicate 5 (.run 0 (answers "first" true)) ++
  List.replicate 7 (.run 0 (answers "second" false)) ++
  .land "second" false :: List.replicate 6 (.run 0 (answers "second" false))

theorem acts_assumed : Along (step rowOf lastHeight 150) (Assumed lastHeight 150) init acts := by
  decide +kernel

theorem acts_land : (run (step rowOf lastHeight 150) init acts).any (fun s =>
    decide (s.world.chain.landed.get "first" = some true ∧
      s.world.chain.landed.get "second" = some false ∧
      (s.world.tables.transfers.get 0).any (fun row => row.status = .confirmed))) = true := by
  decide +kernel

end Sample

/-- Two transactions of one withdrawal land, the first of them with an error. -/
theorem withdrawal_lands_twice : ∃ s, Along (step Sample.rowOf Sample.lastHeight 150)
      (Assumed Sample.lastHeight 150) Sample.init Sample.acts ∧
    run (step Sample.rowOf Sample.lastHeight 150) Sample.init Sample.acts = some s ∧
    Sample.rowOf "first" = Sample.rowOf "second" ∧
    s.world.chain.landed.get "first" = some true ∧
    s.world.chain.landed.get "second" = some false := by
  obtain ⟨s, hs, h⟩ := (Option.any_eq_true _ _).mp Sample.acts_land
  obtain ⟨hfirst, hsecond, -⟩ := of_decide_eq_true h
  exact ⟨s, Sample.acts_assumed, hs, rfl, hfirst, hsecond⟩

theorem withdrawals_land_or_refund_sample : ∃ s,
    run (step Sample.rowOf Sample.lastHeight 150) Sample.init Sample.acts = some s ∧
    s.world.chain.landed.get "second" = some false ∧
    ∀ r ∈ refundRows s.world.tables.db, r.refId ≠ some 0 := by
  obtain ⟨s, hs, h⟩ := (Option.any_eq_true _ _).mp Sample.acts_land
  obtain ⟨-, hsecond, -⟩ := of_decide_eq_true h
  refine ⟨s, hs, hsecond, ?_⟩
  intro r hr hid
  exact (withdrawals_land_or_refund rfl Sample.acts_assumed hs).2.2.1 r hr "second" hid hsecond

end Scadium.Custody.Withdrawal
