/-
Scadium.Games.Crash.Scheduled — a scheduled stake waits in its row, is bound to a
round or is refunded, exactly one of them; and a bet that the round has accepted
stays in it.

The loop undoes a placement by the user, and binds by the user, so it may remove
an immediate bet of the user, or delete the row of a later request. The rejection of
a call deletes and refunds by the user, too. `InOrder` says of each such step that
what it finds is its own.
-/
import Scadium.Games.Crash.Drain

namespace Scadium.Games.Crash.Drain

open Scadium.Lib

/-! ## What is counted -/

namespace State

variable (s : State)

def waiting (b : Stake) : Nat := if s.scheduledCrashBets.get b.userId = some b then 1 else 0

def bound (b : Stake) : Nat := s.crashBets.sum fun b' => if b' = b then 1 else 0

/-- In how many ways a scheduled stake has ended or waits. -/
def outcomes (b : Stake) : Nat := s.waiting b + s.bound b + s.refunds.count b

/-- Every scheduled stake is in one place. -/
def Placed : Prop := ∀ b ∈ s.debits, s.outcomes b = 1

/-- A scheduled stake with a bet in a round is accepted there. -/
def Entered : Prop :=
  ∀ k b, s.crashBets.get k = some b → b.scheduled = true → (k.1, b) ∈ s.accepted

/-- What the round in memory has accepted is in it. -/
def Live : Prop :=
  ∀ roundId b, s.current = some roundId → (roundId, b) ∈ s.accepted → s.bets.get b.userId = some b

/-- The user has no bet in the round that it has accepted. -/
def NoneAccepted (userId : UserId) : Prop :=
  ∀ b ∈ s.bets.get userId, ∀ roundId ∈ s.current, (roundId, b) ∉ s.accepted

instance (userId : UserId) : Decidable (s.NoneAccepted userId) :=
  inferInstanceAs (Decidable (∀ b ∈ s.bets.get userId, ∀ roundId ∈ s.current,
    (roundId, b) ∉ s.accepted))

end State

def Call.rejected : Call → Option Stake
  | .rejecting bet => some bet
  | _ => none

def Work.bound : Work → Option Stake
  | .binding bet => some bet
  | _ => none

def Work.undone : Work → Option Stake
  | .undoing bet => some bet
  | _ => none

/-- What a step removes is its own: a rejected call's row; the row that a
transaction of the loop deletes, its bet being in the round; and the loop undoes no
bet that was accepted. -/
def InOrder (s : State) : Event → Prop
  | .reject call => ∀ c ∈ s.calls.get call, ∀ bet ∈ c.rejected,
      s.scheduledCrashBets.get bet.userId = some bet
  | .place loop _ => ∀ l ∈ s.loops.get loop, ∀ e ∈ s.next l.passed, s.NoneAccepted e.2.userId
  | .bind loop failed => ∀ l ∈ s.loops.get loop, ∀ bet ∈ l.work.bound, ∀ roundId ∈ s.current,
      s.commits roundId bet failed →
        s.scheduledCrashBets.get bet.userId = some bet ∧ s.bets.get bet.userId = some bet
  | .undo loop => ∀ l ∈ s.loops.get loop, ∀ bet ∈ l.work.undone, s.NoneAccepted bet.userId
  | _ => True

instance (s : State) : (e : Event) → Decidable (InOrder s e)
  | .reject call => inferInstanceAs (Decidable (∀ c ∈ s.calls.get call, ∀ bet ∈ c.rejected, _))
  | .place loop _ => inferInstanceAs (Decidable (∀ l ∈ s.loops.get loop, ∀ e ∈ s.next l.passed, _))
  | .bind loop failed => inferInstanceAs (Decidable (∀ l ∈ s.loops.get loop,
      ∀ bet ∈ l.work.bound, ∀ roundId ∈ s.current, s.commits roundId bet failed →
        s.scheduledCrashBets.get bet.userId = some bet ∧ s.bets.get bet.userId = some bet))
  | .undo loop => inferInstanceAs (Decidable (∀ l ∈ s.loops.get loop, ∀ bet ∈ l.work.undone, _))
  | .schedule .. | .queue .. | .cancel .. | .unqueue .. | .placeBet .. | .enter .. | .deleteRow ..
  | .startRound | .finish .. | .closeBets | .stop | .recover .. | .kill => .isTrue trivial

/-! ## The invariant -/

def Work.stake : Work → Option Stake
  | .idle => none
  | .binding bet | .undoing bet => some bet

/-- What a call in flight holds. -/
def Call.Sound (s : State) (n : Nat) : Call → Prop
  | .scheduling bet | .rejecting bet => bet ∈ s.debits
  | .cancelling _ => True
  | .placing bet roundId | .deleting bet roundId =>
      bet.request = n ∧ bet.scheduled = false ∧ s.crashBets.get (roundId, bet.userId) = some bet

structure State.Sound (s : State) : Prop where
  debited : ∀ b ∈ s.debits, b.request < s.drawn ∧ b.scheduled = true
  refunded : ∀ b ∈ s.refunds, b.request < s.drawn
  row : ∀ u b, s.scheduledCrashBets.get u = some b → b.userId = u ∧ b ∈ s.debits
  crashBet : ∀ k b, s.crashBets.get k = some b → b.request < s.drawn
  entered : s.Entered
  inMemory : ∀ u b, s.bets.get u = some b → b.userId = u
  queue : ∀ e ∈ s.nextRoundBets, e.2 ∈ s.debits
  loop : ∀ i l, s.loops.get i = some l → ∀ bet ∈ l.work.stake, bet ∈ s.debits
  call : ∀ n c, s.calls.get n = some c → c.Sound s n
  calling : ∀ n c, s.calls.get n = some c → n < s.drawn
  round : ∀ r ∈ s.current, r ≤ s.rounds
  acceptedIn : ∀ p ∈ s.accepted, p.1 ≤ s.rounds

theorem Call.Sound.mono {s s' : State} {n : Nat} {c : Call} (hc : c.Sound s n)
    (hdebits : ∀ b ∈ s.debits, b ∈ s'.debits)
    (hbets : ∀ k b, s.crashBets.get k = some b → b.request = n → s'.crashBets.get k = some b) :
    c.Sound s' n := by
  cases c with
  | scheduling bet | rejecting bet => exact hdebits bet hc
  | cancelling => trivial
  | placing | deleting => exact ⟨hc.1, hc.2.1, hbets _ _ hc.2.2 hc.1⟩

theorem sound_init : State.init.Sound where
  debited := by simp [State.init]
  refunded := by simp [State.init]
  row := by simp [State.init]
  crashBet := by simp [State.init]
  entered := by simp [State.Entered, State.init]
  inMemory := by simp [State.init]
  queue := by simp [State.init]
  loop := by simp [State.init]
  call := by simp [State.init]
  calling := by simp [State.init]
  round := by simp [State.init]
  acceptedIn := by simp [State.init]

section Sound

variable {s s' : State} {call loop : Nat}

theorem State.Sound.draw (hs : s.Sound) : ({ s with drawn := s.drawn + 1 } : State).Sound where
  debited := fun b hb => ⟨Nat.lt_succ_of_lt (hs.debited b hb).1, (hs.debited b hb).2⟩
  refunded := fun b hb => Nat.lt_succ_of_lt (hs.refunded b hb)
  row := hs.row
  crashBet := fun k b hb => Nat.lt_succ_of_lt (hs.crashBet k b hb)
  entered := hs.entered
  inMemory := hs.inMemory
  queue := hs.queue
  loop := hs.loop
  call := fun n c hc => (hs.call n c hc).mono (fun _ => id) fun _ _ hb _ => hb
  calling := fun n c hc => Nat.lt_succ_of_lt (hs.calling n c hc)
  round := hs.round
  acceptedIn := hs.acceptedIn

theorem sound_schedule (hs : s.Sound) {userId : UserId} {amountLamports : Nat}
    (h : s.schedule userId amountLamports = some s') : s'.Sound := by
  unfold State.schedule at h
  split at h
  · cases h
  · cases h
    exact { hs.draw with
      debited := by
        intro b hb
        rcases List.mem_cons.mp hb with rfl | hb
        · exact ⟨Nat.lt_succ_self _, rfl⟩
        · exact hs.draw.debited b hb
      row := s.scheduledCrashBets.forall_set
        (fun u b hb => ⟨(hs.row u b hb).1, List.mem_cons_of_mem _ (hs.row u b hb).2⟩)
        ⟨rfl, List.mem_cons_self ..⟩
      queue := fun e he => List.mem_cons_of_mem _ (hs.queue e he)
      loop := fun i l hl bet hbet => List.mem_cons_of_mem _ (hs.loop i l hl bet hbet)
      call := s.calls.forall_set (fun n c hc => (hs.call n c hc).mono
        (fun b hb => List.mem_cons_of_mem _ hb) fun _ _ hb _ => hb) (List.mem_cons_self ..)
      calling := s.calls.forall_set hs.draw.calling (Nat.lt_succ_self _) }

theorem sound_queue (hs : s.Sound) (h : s.queue call = some s') : s'.Sound := by
  unfold State.queue at h
  split at h
  · rename_i bet hcall
    have hbet : bet ∈ s.debits := hs.call call _ hcall
    split at h
    · cases h
      exact { hs with
        call := s.calls.forall_set hs.call hbet
        calling := s.calls.forall_set hs.calling (hs.calling call _ hcall) }
    · cases h
      exact { hs.draw with
        queue := by
          intro e he
          rcases List.mem_append.mp he with he | he
          · exact hs.queue e he
          · rw [List.mem_singleton.mp he]
            exact hbet
        call := s.calls.forall_erase hs.call
        calling := s.calls.forall_erase hs.draw.calling }
  · cases h

theorem sound_reject (hs : s.Sound) (h : s.reject call = some s') : s'.Sound := by
  unfold State.reject at h
  split at h
  · rename_i bet hcall
    have hbet : bet ∈ s.debits := hs.call call _ hcall
    cases h
    exact { hs with
      refunded := by
        intro b hb
        rcases List.mem_cons.mp hb with rfl | hb
        · exact (hs.debited _ hbet).1
        · exact hs.refunded b hb
      row := s.scheduledCrashBets.forall_erase hs.row
      call := s.calls.forall_erase hs.call
      calling := s.calls.forall_erase hs.calling }
  · cases h

theorem sound_refundRow (hs : s.Sound) {userId : UserId} (h : s.refundRow userId = some s') :
    s'.Sound := by
  unfold State.refundRow at h
  split at h
  · cases h
  · rename_i row hrow
    cases h
    exact { hs with
      refunded := by
        intro b hb
        rcases List.mem_cons.mp hb with rfl | hb
        · exact (hs.debited _ (hs.row _ _ hrow).2).1
        · exact hs.refunded b hb
      row := s.scheduledCrashBets.forall_erase hs.row }

theorem sound_cancel (hs : s.Sound) {userId : UserId} (h : s.cancel userId = some s') :
    s'.Sound := by
  obtain ⟨s₁, hs₁, rfl⟩ := Option.map_eq_some_iff.mp h
  have h₁ := sound_refundRow hs hs₁
  exact { h₁.draw with
    call := s₁.calls.forall_set h₁.call trivial
    calling := s₁.calls.forall_set h₁.draw.calling (Nat.lt_succ_self _) }

theorem sound_unqueue (hs : s.Sound) (h : s.unqueue call = some s') : s'.Sound := by
  unfold State.unqueue at h
  split at h
  · cases h
    exact { hs with
      queue := fun e he => hs.queue e (List.mem_of_mem_filter he)
      call := s.calls.forall_erase hs.call
      calling := s.calls.forall_erase hs.calling }
  · cases h

/-- A row that is written where there is none. -/
theorem get_set_of_none {t : Table (RoundId × UserId) Stake} {k j : RoundId × UserId}
    {b bet : Stake} (hnone : t.get k = none) (hb : t.get j = some b) :
    (t.set k bet).get j = some b := by
  have hne : j ≠ k := by
    rintro rfl
    rw [hnone] at hb
    cases hb
  rw [t.get_set_ne hne, hb]

theorem sound_placeBet (hs : s.Sound) {userId : UserId} {amountLamports : Nat} {roundId : RoundId}
    (h : s.placeBet userId amountLamports roundId = some s') : s'.Sound := by
  unfold State.placeBet at h
  split at h
  · cases h
  · rename_i hguard
    have hnone : s.crashBets.get (roundId, userId) = none := by
      cases hget : s.crashBets.get (roundId, userId) with
      | none => rfl
      | some => simp [hget] at hguard
    cases h
    exact { hs.draw with
      crashBet := s.crashBets.forall_set hs.draw.crashBet (Nat.lt_succ_self _)
      entered := s.crashBets.forall_set hs.entered (by simp)
      call := s.calls.forall_set (fun n c hc => (hs.call n c hc).mono (fun _ => id)
        fun _ _ hb _ => get_set_of_none hnone hb) ⟨rfl, rfl, s.crashBets.get_set_self⟩
      calling := s.calls.forall_set hs.draw.calling (Nat.lt_succ_self _) }

theorem sound_enter (hs : s.Sound) {refused : Bool} (h : s.enter call refused = some s') :
    s'.Sound := by
  unfold State.enter at h
  split at h
  · rename_i bet roundId hcall
    split at h
    · rename_i htakes
      have hcurrent : s.current = some roundId := by
        simp [State.takes] at htakes
        exact htakes.2.2
      cases h
      exact { hs with
        inMemory := s.bets.forall_set hs.inMemory rfl
        call := s.calls.forall_erase hs.call
        calling := s.calls.forall_erase hs.calling
        entered := fun k b hb hscheduled => List.mem_cons_of_mem _ (hs.entered k b hb hscheduled)
        acceptedIn := by
          intro p hp
          rcases List.mem_cons.mp hp with rfl | hp
          · exact hs.round roundId hcurrent
          · exact hs.acceptedIn p hp }
    · cases h
      exact { hs with
        call := s.calls.forall_set hs.call (hs.call call _ hcall)
        calling := s.calls.forall_set hs.calling (hs.calling call _ hcall) }
  · cases h

theorem sound_deleteRow (hs : s.Sound) {deleted : Bool} (h : s.deleteRow call deleted = some s') :
    s'.Sound := by
  unfold State.deleteRow at h
  split at h
  · rename_i bet roundId hcall
    obtain ⟨hrequest, -, hrow⟩ := hs.call call _ hcall
    cases h
    cases deleted with
    | false =>
      exact { hs with
        call := s.calls.forall_erase hs.call
        calling := s.calls.forall_erase hs.calling }
    | true =>
      exact { hs with
        crashBet := s.crashBets.forall_erase hs.crashBet
        entered := s.crashBets.forall_erase hs.entered
        call := by
          -- the row of any other call has another request
          intro n c hc
          have hne : n ≠ call := by
            rintro rfl
            rw [Table.get_erase_self] at hc
            cases hc
          refine (hs.call n c (s.calls.get_of_erase hc)).mono (fun _ => id) ?_
          intro k b hb hn
          have hk : k ≠ (roundId, bet.userId) := by
            rintro rfl
            rw [hrow] at hb
            cases hb
            exact hne (hn.symm.trans hrequest)
          exact (s.crashBets.get_erase_ne hk).trans hb
        calling := s.calls.forall_erase hs.calling }
  · cases h

theorem sound_startRound (hs : s.Sound) (h : s.startRound = some s') : s'.Sound := by
  unfold State.startRound at h
  split at h
  · cases h
  · cases h
    exact { hs.draw with
      inMemory := by simp
      loop := s.loops.forall_set hs.loop (by simp [Work.stake])
      round := by simp
      acceptedIn := fun p hp => Nat.le_succ_of_le (hs.acceptedIn p hp) }

theorem sound_place (hs : s.Sound) {refused : Bool} (h : s.place loop refused = some s') :
    s'.Sound := by
  unfold State.place at h
  split at h
  · split at h
    · cases h
    · rename_i n bet hnext
      have hbet : bet ∈ s.debits := hs.queue _ (List.mem_of_find?_eq_some hnext)
      split at h
      · cases h
        exact { hs with
          inMemory := s.bets.forall_set hs.inMemory rfl
          loop := s.loops.forall_set hs.loop (by simpa [Work.stake] using hbet) }
      · cases h
        exact { hs with
          inMemory := s.bets.forall_erase hs.inMemory
          loop := s.loops.forall_set hs.loop (by simp [Work.stake]) }
  · cases h

theorem sound_bind (hs : s.Sound) {failed : Bool} (h : s.bind loop failed = some s') :
    s'.Sound := by
  unfold State.bind at h
  split at h
  · rename_i passed bet roundId hloop hcurrent
    have hbet : bet ∈ s.debits := hs.loop loop _ hloop bet rfl
    split at h
    · rename_i hcommits
      have hnone : s.crashBets.get (roundId, bet.userId) = none := by
        simp [State.commits] at hcommits
        exact hcommits.1.2
      cases h
      exact { hs with
        row := s.scheduledCrashBets.forall_erase hs.row
        crashBet := s.crashBets.forall_set hs.crashBet (hs.debited bet hbet).1
        entered := s.crashBets.forall_set
          (fun k b hb hscheduled => List.mem_cons_of_mem _ (hs.entered k b hb hscheduled))
          fun _ => List.mem_cons_self ..
        loop := s.loops.forall_set hs.loop (by simp [Work.stake])
        call := fun n c hc =>
          (hs.call n c hc).mono (fun _ => id) fun _ _ hb _ => get_set_of_none hnone hb
        acceptedIn := by
          intro p hp
          rcases List.mem_cons.mp hp with rfl | hp
          · exact hs.round roundId hcurrent
          · exact hs.acceptedIn p hp }
    · cases h
      exact { hs with
        loop := s.loops.forall_set hs.loop (by simpa [Work.stake] using hbet) }
  · cases h

theorem sound_undo (hs : s.Sound) (h : s.undo loop = some s') : s'.Sound := by
  unfold State.undo at h
  split at h
  · cases h
    exact { hs with
      inMemory := s.bets.forall_erase hs.inMemory
      loop := s.loops.forall_set hs.loop (by simp [Work.stake]) }
  · cases h

theorem sound_finish (hs : s.Sound) (h : s.finish loop = some s') : s'.Sound := by
  unfold State.finish at h
  split at h
  · split at h
    · cases h
    · cases h
      exact { hs with
        queue := by simp
        loop := s.loops.forall_erase hs.loop }
  · cases h

theorem sound_step (s : State) (e : Event) (s' : State) (hs : s.Sound) (h : step s e = some s') :
    s'.Sound := by
  cases e with
  | schedule => exact sound_schedule hs h
  | queue => exact sound_queue hs h
  | reject => exact sound_reject hs h
  | cancel => exact sound_cancel hs h
  | unqueue => exact sound_unqueue hs h
  | placeBet => exact sound_placeBet hs h
  | enter => exact sound_enter hs h
  | deleteRow => exact sound_deleteRow hs h
  | startRound => exact sound_startRound hs h
  | place => exact sound_place hs h
  | bind => exact sound_bind hs h
  | undo => exact sound_undo hs h
  | finish => exact sound_finish hs h
  | closeBets =>
    cases h
    exact { hs with }
  | stop =>
    cases h
    exact { hs with queue := by simp }
  | recover => exact sound_refundRow hs h
  | kill =>
    cases h
    exact { hs with
      inMemory := by simp
      queue := by simp
      loop := by simp
      call := by simp
      calling := by simp
      round := by simp }

end Sound

/-! ## Steps -/

/-- Nothing that a scheduled stake is counted in changes. -/
structure SameStakes (s s' : State) : Prop where
  rows : s'.scheduledCrashBets = s.scheduledCrashBets
  crashBets : s'.crashBets = s.crashBets
  refunds : s'.refunds = s.refunds
  debits : s'.debits = s.debits

/-- Nor does the round in memory. -/
structure SameRound (s s' : State) : Prop where
  current : s'.current = s.current
  bets : s'.bets = s.bets
  accepted : s'.accepted = s.accepted

/-- What a step does to the stakes and to the round in memory. -/
inductive Effect (s s' : State) : Event → Prop where
  | same {e : Event} (hok : InOrder s e) (hstakes : SameStakes s s') (hround : SameRound s s') :
      Effect s s' e
  | opened {e : Event} (hok : InOrder s e) (hstakes : SameStakes s s')
      (hcurrent : ∀ roundId ∈ s'.current, s.rounds < roundId)
      (haccepted : s'.accepted = s.accepted) : Effect s s' e
  | schedule {e : Event} (bet : Stake) (hok : InOrder s e) (hrequest : bet.request = s.drawn)
      (hnone : s.scheduledCrashBets.get bet.userId = none)
      (hrows : s'.scheduledCrashBets = s.scheduledCrashBets.set bet.userId bet)
      (hcrashBets : s'.crashBets = s.crashBets) (hrefunds : s'.refunds = s.refunds)
      (hdebits : s'.debits = bet :: s.debits) (hround : SameRound s s') : Effect s s' e
  | reject (call : Nat) (bet : Stake) (hcall : s.calls.get call = some (.rejecting bet))
      (hrows : s'.scheduledCrashBets = s.scheduledCrashBets.erase bet.userId)
      (hcrashBets : s'.crashBets = s.crashBets) (hrefunds : s'.refunds = bet :: s.refunds)
      (hdebits : s'.debits = s.debits) (hround : SameRound s s') : Effect s s' (.reject call)
  | refund {e : Event} (userId : UserId) (row : Stake) (hok : InOrder s e)
      (hrow : s.scheduledCrashBets.get userId = some row)
      (hrows : s'.scheduledCrashBets = s.scheduledCrashBets.erase userId)
      (hcrashBets : s'.crashBets = s.crashBets) (hrefunds : s'.refunds = row :: s.refunds)
      (hdebits : s'.debits = s.debits) (hround : SameRound s s') : Effect s s' e
  | placeBet {e : Event} (k : RoundId × UserId) (bet : Stake) (hok : InOrder s e)
      (hscheduled : bet.scheduled = false) (hnone : s.crashBets.get k = none)
      (hrows : s'.scheduledCrashBets = s.scheduledCrashBets)
      (hcrashBets : s'.crashBets = s.crashBets.set k bet) (hrefunds : s'.refunds = s.refunds)
      (hdebits : s'.debits = s.debits) (hround : SameRound s s') : Effect s s' e
  | deleteRow (call : Nat) (bet : Stake) (roundId : RoundId)
      (hcall : s.calls.get call = some (.deleting bet roundId))
      (hrows : s'.scheduledCrashBets = s.scheduledCrashBets)
      (hcrashBets : s'.crashBets = s.crashBets.erase (roundId, bet.userId))
      (hrefunds : s'.refunds = s.refunds) (hdebits : s'.debits = s.debits)
      (hround : SameRound s s') : Effect s s' (.deleteRow call true)
  | enter {e : Event} (bet : Stake) (hok : InOrder s e) (hstakes : SameStakes s s')
      (hcurrent : s'.current = s.current) (hnone : s.bets.get bet.userId = none)
      (hbets : s'.bets = s.bets.set bet.userId bet)
      (haccepted : ∀ p ∈ s'.accepted, p ∈ s.accepted ∨ p.2 = bet) : Effect s s' e
  | undo {e : Event} (userId : UserId) (hok : InOrder s e ↔ s.NoneAccepted userId)
      (hstakes : SameStakes s s') (hcurrent : s'.current = s.current)
      (hbets : s'.bets = s.bets.erase userId) (haccepted : s'.accepted = s.accepted) :
      Effect s s' e
  | commit (loop passed : Nat) (bet : Stake) (roundId : RoundId)
      (hloop : s.loops.get loop = some ⟨passed, .binding bet⟩)
      (hround : s.current = some roundId) (hcommits : s.commits roundId bet false = true)
      (hrows : s'.scheduledCrashBets = s.scheduledCrashBets.erase bet.userId)
      (hcrashBets : s'.crashBets = s.crashBets.set (roundId, bet.userId) bet)
      (hrefunds : s'.refunds = s.refunds) (hdebits : s'.debits = s.debits)
      (hcurrent : s'.current = s.current) (hbets : s'.bets = s.bets)
      (haccepted : s'.accepted = (roundId, bet) :: s.accepted) :
      Effect s s' (.bind loop false)

theorem takes_none {s : State} {userId : UserId} {refused : Bool}
    (h : s.takes userId refused = true) : s.bets.get userId = none := by
  simp [State.takes] at h
  exact h.1.2

theorem commits_eq {s : State} {roundId : RoundId} {bet : Stake} {failed : Bool}
    (h : s.commits roundId bet failed = true) :
    failed = false ∧ s.crashBets.get (roundId, bet.userId) = none ∧
      ∃ row, s.scheduledCrashBets.get bet.userId = some row := by
  simp [State.commits, Option.isSome_iff_exists] at h
  exact ⟨h.1.1, h.1.2, h.2⟩

section Effect

variable {s s' : State} {call loop : Nat}

theorem effect_queue (h : s.queue call = some s') : Effect s s' (.queue call) := by
  unfold State.queue at h
  split at h
  · split at h
    · cases h
      exact .same trivial ⟨rfl, rfl, rfl, rfl⟩ ⟨rfl, rfl, rfl⟩
    · cases h
      exact .same trivial ⟨rfl, rfl, rfl, rfl⟩ ⟨rfl, rfl, rfl⟩
  · cases h

theorem effect_enter {refused : Bool} (h : s.enter call refused = some s') :
    Effect s s' (.enter call refused) := by
  unfold State.enter at h
  split at h
  · rename_i bet roundId hcall
    split at h
    · rename_i htakes
      cases h
      refine .enter bet trivial ⟨rfl, rfl, rfl, rfl⟩ rfl (takes_none htakes) rfl ?_
      intro p hp
      rcases List.mem_cons.mp hp with rfl | hp
      · exact Or.inr rfl
      · exact Or.inl hp
    · cases h
      exact .same trivial ⟨rfl, rfl, rfl, rfl⟩ ⟨rfl, rfl, rfl⟩
  · cases h

theorem effect_place {refused : Bool} (h : s.place loop refused = some s') :
    Effect s s' (.place loop refused) := by
  unfold State.place at h
  split at h
  · rename_i passed hloop
    split at h
    · cases h
    · rename_i n bet hnext
      have hok : InOrder s (.place loop refused) ↔ s.NoneAccepted bet.userId := by
        simp [InOrder, hloop, hnext]
      split at h
      · rename_i htakes
        have hnone := takes_none htakes
        cases h
        refine .enter bet (hok.mpr ?_) ⟨rfl, rfl, rfl, rfl⟩ rfl hnone rfl fun p => Or.inl
        intro b hb
        rw [hnone] at hb
        cases hb
      · cases h
        exact .undo bet.userId hok ⟨rfl, rfl, rfl, rfl⟩ rfl rfl rfl
  · cases h

theorem effect_bind {failed : Bool} (h : s.bind loop failed = some s') :
    Effect s s' (.bind loop failed) := by
  unfold State.bind at h
  split at h
  · rename_i passed bet roundId hloop hround
    split at h
    · rename_i hcommits
      cases h
      obtain ⟨rfl, -⟩ := commits_eq hcommits
      exact .commit loop passed bet roundId hloop hround hcommits rfl rfl rfl rfl rfl rfl rfl
    · rename_i hcommits
      cases h
      refine .same ?_ ⟨rfl, rfl, rfl, rfl⟩ ⟨rfl, rfl, rfl⟩
      simp [InOrder, hloop, hround, Work.bound, hcommits]
  · cases h

theorem effect_undo (h : s.undo loop = some s') : Effect s s' (.undo loop) := by
  unfold State.undo at h
  split at h
  · rename_i passed bet hloop
    cases h
    refine .undo bet.userId ?_ ⟨rfl, rfl, rfl, rfl⟩ rfl rfl rfl
    simp [InOrder, hloop, Work.undone]
  · cases h

theorem effect_deleteRow {deleted : Bool} (h : s.deleteRow call deleted = some s') :
    Effect s s' (.deleteRow call deleted) := by
  unfold State.deleteRow at h
  split at h
  · rename_i bet roundId hcall
    cases h
    cases deleted with
    | false => exact .same trivial ⟨rfl, rfl, rfl, rfl⟩ ⟨rfl, rfl, rfl⟩
    | true => exact .deleteRow call bet roundId hcall rfl rfl rfl rfl ⟨rfl, rfl, rfl⟩
  · cases h

theorem effect_placeBet {userId : UserId} {amountLamports : Nat} {roundId : RoundId}
    (h : s.placeBet userId amountLamports roundId = some s') :
    Effect s s' (.placeBet userId amountLamports roundId) := by
  unfold State.placeBet at h
  split at h
  · cases h
  · rename_i hguard
    simp only [Bool.or_eq_true, decide_eq_true_eq, not_or, Option.not_isSome_iff_eq_none] at hguard
    cases h
    exact .placeBet (roundId, userId) _ trivial rfl hguard.2 rfl rfl rfl rfl ⟨rfl, rfl, rfl⟩

theorem effect {e : Event} (h : step s e = some s') : Effect s s' e := by
  cases e with
  | schedule =>
    simp only [step, State.schedule] at h
    split at h
    · cases h
    · rename_i hnone
      cases h
      exact .schedule _ trivial rfl (Option.not_isSome_iff_eq_none.mp hnone) rfl rfl rfl rfl
        ⟨rfl, rfl, rfl⟩
  | queue => exact effect_queue h
  | reject call =>
    simp only [step, State.reject] at h
    split at h
    · rename_i bet hcall
      cases h
      exact .reject call bet hcall rfl rfl rfl rfl ⟨rfl, rfl, rfl⟩
    · cases h
  | cancel userId =>
    simp only [step, State.cancel, State.refundRow] at h
    split at h
    · cases h
    · rename_i row hrow
      cases h
      exact .refund userId row trivial hrow rfl rfl rfl rfl ⟨rfl, rfl, rfl⟩
  | unqueue =>
    simp only [step, State.unqueue] at h
    split at h
    · cases h
      exact .same trivial ⟨rfl, rfl, rfl, rfl⟩ ⟨rfl, rfl, rfl⟩
    · cases h
  | placeBet => exact effect_placeBet h
  | enter => exact effect_enter h
  | deleteRow => exact effect_deleteRow h
  | startRound =>
    simp only [step, State.startRound] at h
    split at h
    · cases h
    · cases h
      exact .opened trivial ⟨rfl, rfl, rfl, rfl⟩ (by simp) rfl
  | place => exact effect_place h
  | bind => exact effect_bind h
  | undo => exact effect_undo h
  | finish =>
    simp only [step, State.finish] at h
    split at h
    · split at h
      · cases h
      · cases h
        exact .same trivial ⟨rfl, rfl, rfl, rfl⟩ ⟨rfl, rfl, rfl⟩
    · cases h
  | closeBets | stop =>
    cases h
    exact .same trivial ⟨rfl, rfl, rfl, rfl⟩ ⟨rfl, rfl, rfl⟩
  | recover userId =>
    simp only [step, State.refundRow] at h
    split at h
    · cases h
    · rename_i row hrow
      cases h
      exact .refund userId row trivial hrow rfl rfl rfl rfl ⟨rfl, rfl, rfl⟩
  | kill =>
    cases h
    exact .opened trivial ⟨rfl, rfl, rfl, rfl⟩ (by simp) rfl

end Effect

/-! ## The round in memory -/

section Live

variable {s s' : State}

theorem live_of_same (hl : s.Live) (h : SameRound s s') : s'.Live := by
  intro roundId b hr hb
  rw [h.current] at hr
  rw [h.accepted] at hb
  rw [h.bets]
  exact hl roundId b hr hb

/-- A new round has accepted nothing. -/
theorem live_opened (hs : s.Sound) (hcurrent : ∀ roundId ∈ s'.current, s.rounds < roundId)
    (haccepted : s'.accepted = s.accepted) : s'.Live := by
  intro roundId b hr hb
  rw [haccepted] at hb
  have hlt := hcurrent roundId hr
  have hle := hs.acceptedIn _ hb
  exact absurd hlt (Nat.not_lt.mpr hle)

/-- A user without a bet gets one. -/
theorem live_set (hl : s.Live) (hcurrent : s'.current = s.current) {bet : Stake}
    (hnone : s.bets.get bet.userId = none) (hbets : s'.bets = s.bets.set bet.userId bet)
    (haccepted : ∀ p ∈ s'.accepted, p ∈ s.accepted ∨ p.2 = bet) : s'.Live := by
  intro roundId b hr hb
  rw [hcurrent] at hr
  rw [hbets]
  rcases haccepted _ hb with hold | rfl
  · have hget := hl roundId b hr hold
    have hne : b.userId ≠ bet.userId := by
      intro heq
      rw [heq, hnone] at hget
      cases hget
    rw [Table.get_set_ne _ hne, hget]
  · exact Table.get_set_self _

/-- An undone placement leaves what was accepted exactly if it was not. -/
theorem live_undo (hs : s.Sound) (hl : s.Live) {userId : UserId}
    (hcurrent : s'.current = s.current) (hbets : s'.bets = s.bets.erase userId)
    (haccepted : s'.accepted = s.accepted) : s'.Live ↔ s.NoneAccepted userId := by
  constructor
  · intro hl' b hb roundId hr hmem
    have hown := hs.inMemory userId b hb
    have hget := hl' roundId b (hcurrent.trans hr) (haccepted ▸ hmem)
    rw [hbets, hown, Table.get_erase_self] at hget
    cases hget
  · intro hnone roundId b hr hmem
    rw [hcurrent] at hr
    rw [haccepted] at hmem
    have hget := hl roundId b hr hmem
    have hne : b.userId ≠ userId := by
      intro heq
      exact hnone b (heq ▸ hget) roundId hr hmem
    rw [hbets, Table.get_erase_ne _ hne, hget]

/-- A bet that is bound stays exactly if it is in the round. -/
theorem live_commit (hl : s.Live) {roundId : RoundId} {bet : Stake}
    (hround : s.current = some roundId) (hcurrent : s'.current = s.current)
    (hbets : s'.bets = s.bets) (haccepted : s'.accepted = (roundId, bet) :: s.accepted) :
    s'.Live ↔ s.bets.get bet.userId = some bet := by
  constructor
  · intro hl'
    have hget := hl' roundId bet (hcurrent.trans hround) (haccepted ▸ List.mem_cons_self ..)
    rwa [hbets] at hget
  · intro hin r b hr hb
    rw [hcurrent] at hr
    rw [haccepted] at hb
    rw [hbets]
    rcases List.mem_cons.mp hb with heq | hb
    · cases heq
      exact hin
    · exact hl r b hr hb

end Live

/-! ## The stakes -/

section Placed

variable {s s' : State} {bet : Stake}

theorem placed_of_same (hp : s.Placed) (h : SameStakes s s') : s'.Placed := by
  intro b hb
  rw [h.debits] at hb
  simpa only [State.outcomes, State.waiting, State.bound, h.rows, h.crashBets, h.refunds]
    using hp b hb

/-- A stake that is scheduled waits, and is nowhere else. -/
theorem placed_schedule (hs : s.Sound) (hp : s.Placed) (hrequest : bet.request = s.drawn)
    (hnone : s.scheduledCrashBets.get bet.userId = none)
    (hrows : s'.scheduledCrashBets = s.scheduledCrashBets.set bet.userId bet)
    (hcrashBets : s'.crashBets = s.crashBets) (hrefunds : s'.refunds = s.refunds)
    (hdebits : s'.debits = bet :: s.debits) : s'.Placed := by
  intro b hb
  rw [hdebits] at hb
  simp only [State.outcomes, State.waiting, State.bound, hrows, hcrashBets, hrefunds]
  rcases List.mem_cons.mp hb with rfl | hb
  · have hbound : s.crashBets.sum (fun b' => if b' = b then 1 else 0) = 0 := by
      refine s.crashBets.sum_eq_zero ?_
      intro k b' hb'
      have hlt := hs.crashBet k b' hb'
      have hne : b' ≠ b := by
        rintro rfl
        omega
      simp [hne]
    have hcount : s.refunds.count b = 0 := by
      rw [List.count_eq_zero]
      intro hmem
      have hlt := hs.refunded b hmem
      omega
    simp [hbound, hcount]
  · have hone := hp b hb
    have hlt := (hs.debited b hb).1
    have hne : bet ≠ b := by
      rintro rfl
      omega
    simp only [State.outcomes, State.waiting, State.bound] at hone
    by_cases hu : b.userId = bet.userId
    · simpa [hu, hnone, hne] using hone
    · rwa [Table.get_set_ne _ hu]

/-- A row that is refunded. -/
theorem outcomes_refund {row : Stake} (hrow : s.scheduledCrashBets.get row.userId = some row)
    (hrows : s'.scheduledCrashBets = s.scheduledCrashBets.erase row.userId)
    (hcrashBets : s'.crashBets = s.crashBets) (hrefunds : s'.refunds = row :: s.refunds)
    (b : Stake) : s'.outcomes b = s.outcomes b := by
  simp only [State.outcomes, State.waiting, State.bound, hrows, hcrashBets, hrefunds,
    List.count_cons]
  by_cases hb : row = b
  · subst hb
    simp [hrow]
    omega
  · have hcount : (row == b) = false := by simpa using hb
    by_cases hu : b.userId = row.userId
    · simp [hu, hrow, hb, hcount]
    · simp [Table.get_erase_ne _ hu, hcount]

theorem placed_refund (hp : s.Placed) {row : Stake}
    (hrow : s.scheduledCrashBets.get row.userId = some row)
    (hrows : s'.scheduledCrashBets = s.scheduledCrashBets.erase row.userId)
    (hcrashBets : s'.crashBets = s.crashBets) (hrefunds : s'.refunds = row :: s.refunds)
    (hdebits : s'.debits = s.debits) : s'.Placed := by
  intro b hb
  rw [hdebits] at hb
  rw [outcomes_refund hrow hrows hcrashBets hrefunds]
  exact hp b hb

/-- A rejected call refunds its own stake a second time if the row is not its own. -/
theorem placed_reject (hp : s.Placed) (hbet : bet ∈ s.debits)
    (hrows : s'.scheduledCrashBets = s.scheduledCrashBets.erase bet.userId)
    (hcrashBets : s'.crashBets = s.crashBets) (hrefunds : s'.refunds = bet :: s.refunds)
    (hdebits : s'.debits = s.debits) :
    s'.Placed ↔ s.scheduledCrashBets.get bet.userId = some bet := by
  constructor
  · intro hp'
    by_contra hrow
    have hone := hp bet hbet
    have hone' := hp' bet (hdebits ▸ hbet)
    simp [State.outcomes, State.waiting, State.bound, hrow] at hone
    simp [State.outcomes, State.waiting, State.bound, hrows, hcrashBets, hrefunds] at hone'
    omega
  · intro hrow
    exact placed_refund hp hrow hrows hcrashBets hrefunds hdebits

/-- Rows of immediate bets are no scheduled stakes. -/
theorem placed_placeBet (hs : s.Sound) (hp : s.Placed) {k : RoundId × UserId}
    (hscheduled : bet.scheduled = false) (hnone : s.crashBets.get k = none)
    (hrows : s'.scheduledCrashBets = s.scheduledCrashBets)
    (hcrashBets : s'.crashBets = s.crashBets.set k bet) (hrefunds : s'.refunds = s.refunds)
    (hdebits : s'.debits = s.debits) : s'.Placed := by
  intro b hb
  rw [hdebits] at hb
  have hone := hp b hb
  have hne : bet ≠ b := by
    rintro rfl
    rw [(hs.debited _ hb).2] at hscheduled
    cases hscheduled
  have hsum := s.crashBets.sum_set (k := k) (a := bet) (g := fun b' => if b' = b then 1 else 0)
  simp [hnone, hne] at hsum
  simpa only [State.outcomes, State.waiting, State.bound, hrows, hcrashBets, hrefunds, hsum]
    using hone

theorem placed_deleteRow (hs : s.Sound) (hp : s.Placed) {k : RoundId × UserId}
    (hscheduled : bet.scheduled = false) (hrow : s.crashBets.get k = some bet)
    (hrows : s'.scheduledCrashBets = s.scheduledCrashBets)
    (hcrashBets : s'.crashBets = s.crashBets.erase k) (hrefunds : s'.refunds = s.refunds)
    (hdebits : s'.debits = s.debits) : s'.Placed := by
  intro b hb
  rw [hdebits] at hb
  have hone := hp b hb
  have hne : bet ≠ b := by
    rintro rfl
    rw [(hs.debited _ hb).2] at hscheduled
    cases hscheduled
  have hsum := s.crashBets.sum_erase (g := fun b' => if b' = b then 1 else 0) hrow
  simp [hne] at hsum
  simpa only [State.outcomes, State.waiting, State.bound, hrows, hcrashBets, hrefunds, hsum]
    using hone

/-- A transaction that deletes the row of another stake leaves that one nowhere. -/
theorem placed_commit (hs : s.Sound) (hp : s.Placed) {roundId : RoundId}
    (hnone : s.crashBets.get (roundId, bet.userId) = none) {row : Stake}
    (hrow : s.scheduledCrashBets.get bet.userId = some row)
    (hrows : s'.scheduledCrashBets = s.scheduledCrashBets.erase bet.userId)
    (hcrashBets : s'.crashBets = s.crashBets.set (roundId, bet.userId) bet)
    (hrefunds : s'.refunds = s.refunds) (hdebits : s'.debits = s.debits) :
    s'.Placed ↔ row = bet := by
  obtain ⟨hown, hdebited⟩ := hs.row _ _ hrow
  have hbound : ∀ b, s'.bound b = s.bound b + if bet = b then 1 else 0 := by
    intro b
    have hsum := s.crashBets.sum_set (k := (roundId, bet.userId)) (a := bet)
      (g := fun b' => if b' = b then 1 else 0)
    simp only [hnone, Option.map_none, Option.getD_none] at hsum
    rw [State.bound, hcrashBets, State.bound]
    omega
  have hwaiting : ∀ b, s'.waiting b = if b = row then 0 else s.waiting b := by
    intro b
    rw [State.waiting, State.waiting, hrows]
    by_cases hu : b.userId = bet.userId
    · rw [hu, Table.get_erase_self, hrow]
      by_cases hb : b = row
      · simp [hb]
      · simp [hb, Ne.symm hb]
    · have hne : b ≠ row := by
        rintro rfl
        exact hu hown
      rw [Table.get_erase_ne _ hu]
      simp [hne]
  have hwaits : s.waiting row = 1 := by
    rw [State.waiting, hown, hrow]
    simp
  constructor
  · intro hp'
    by_contra hne
    have hone := hp row hdebited
    have hone' := hp' row (hdebits ▸ hdebited)
    rw [State.outcomes, hwaits] at hone
    rw [State.outcomes, hwaiting, hbound, hrefunds] at hone'
    simp [Ne.symm hne] at hone'
    omega
  · rintro rfl b hb
    rw [hdebits] at hb
    have hone := hp b hb
    rw [State.outcomes] at hone
    rw [State.outcomes, hwaiting, hbound, hrefunds]
    by_cases hb : b = row
    · subst hb
      simp
      omega
    · simpa [hb, Ne.symm hb] using hone

end Placed

/-! ## Runs -/

/-- Every scheduled stake is in one place, accepted if that is a round, and no bet that
was accepted is gone. -/
structure State.Right (s : State) : Prop where
  placed : s.Placed
  entered : s.Entered
  live : s.Live

theorem right_step {s s' : State} {e : Event} (hs : s.Sound) (h : s.Right)
    (hstep : step s e = some s') : s'.Right ↔ InOrder s e := by
  obtain ⟨hp, -, hl⟩ := h
  have he := (sound_step s e s' hs hstep).entered
  cases effect hstep with
  | same hok hstakes hround =>
    exact iff_of_true ⟨placed_of_same hp hstakes, he, live_of_same hl hround⟩ hok
  | opened hok hstakes hcurrent haccepted =>
    exact iff_of_true ⟨placed_of_same hp hstakes, he, live_opened hs hcurrent haccepted⟩ hok
  | schedule bet hok hrequest hnone hrows hcrashBets hrefunds hdebits hround =>
    have hp' := placed_schedule hs hp hrequest hnone hrows hcrashBets hrefunds hdebits
    exact iff_of_true ⟨hp', he, live_of_same hl hround⟩ hok
  | reject call bet hcall hrows hcrashBets hrefunds hdebits hround =>
    have hp' := placed_reject hp (hs.call call _ hcall) hrows hcrashBets hrefunds hdebits
    have hok : InOrder s (.reject call) ↔ s.scheduledCrashBets.get bet.userId = some bet := by
      simp [InOrder, hcall, Call.rejected]
    rw [hok, ← hp']
    exact ⟨fun h => h.placed, fun h => ⟨h, he, live_of_same hl hround⟩⟩
  | refund userId row hok hrow hrows hcrashBets hrefunds hdebits hround =>
    obtain ⟨rfl, -⟩ := hs.row _ _ hrow
    have hp' := placed_refund hp hrow hrows hcrashBets hrefunds hdebits
    exact iff_of_true ⟨hp', he, live_of_same hl hround⟩ hok
  | placeBet k bet hok hscheduled hnone hrows hcrashBets hrefunds hdebits hround =>
    have hp' := placed_placeBet hs hp hscheduled hnone hrows hcrashBets hrefunds hdebits
    exact iff_of_true ⟨hp', he, live_of_same hl hround⟩ hok
  | deleteRow call bet roundId hcall hrows hcrashBets hrefunds hdebits hround =>
    obtain ⟨-, hscheduled, hrow⟩ := hs.call call _ hcall
    have hp' := placed_deleteRow hs hp hscheduled hrow hrows hcrashBets hrefunds hdebits
    exact iff_of_true ⟨hp', he, live_of_same hl hround⟩ trivial
  | enter bet hok hstakes hcurrent hnone hbets haccepted =>
    have hl' := live_set hl hcurrent hnone hbets haccepted
    exact iff_of_true ⟨placed_of_same hp hstakes, he, hl'⟩ hok
  | undo userId hok hstakes hcurrent hbets haccepted =>
    rw [hok, ← live_undo hs hl hcurrent hbets haccepted]
    exact ⟨fun h => h.live, fun h => ⟨placed_of_same hp hstakes, he, h⟩⟩
  | commit loop passed bet roundId hloop hround hcommits hrows hcrashBets hrefunds hdebits
      hcurrent hbets haccepted =>
    obtain ⟨-, hnone, row, hrow⟩ := commits_eq hcommits
    have hp' := placed_commit hs hp hnone hrow hrows hcrashBets hrefunds hdebits
    have hl' := live_commit hl hround hcurrent hbets haccepted
    have hok : InOrder s (.bind loop false) ↔
        row = bet ∧ s.bets.get bet.userId = some bet := by
      simp [InOrder, hloop, hround, hcommits, Work.bound, hrow]
    rw [hok, ← hp', ← hl']
    exact ⟨fun h => ⟨h.placed, h.live⟩, fun h => ⟨h.1, he, h.2⟩⟩

theorem right_init : State.init.Right where
  placed := by simp [State.Placed, State.init]
  entered := sound_init.entered
  live := by simp [State.Live, State.init]

/-- Stakes and rounds are right all along a run exactly if every step is in order. -/
theorem drained_right_iff {es : List Event} {t : State} (hrun : run step State.init es = some t) :
    Throughout step State.init es State.Right ↔ Along step InOrder State.init es :=
  throughout_iff_along sound_step (fun _ _ _ hs h hstep => right_step hs h hstep) sound_init
    right_init hrun

namespace Sample

/-- Users 1 and 2 schedule, and a round opens. -/
def opened : List Event :=
  [.schedule 1 500, .queue 0, .schedule 2 700, .queue 2, .startRound]

/-- Both entries are bound. -/
def drained : List Event :=
  opened ++ [.place 4 false, .bind 4 false, .place 4 false, .bind 4 false, .finish 4]

theorem drained_right_iff_bound : Throughout step State.init drained State.Right := by
  have hsome : (run step State.init drained).isSome := by decide +kernel
  obtain ⟨t, ht⟩ := Option.isSome_iff_exists.mp hsome
  exact (drained_right_iff ht).mpr (by decide +kernel)

/-- While user 1's entry is bound, user 2 bets in the round. -/
def betting : List Event :=
  opened ++ [.place 4 false, .placeBet 2 300 1, .enter 5 false, .bind 4 false]

/-- The bet of user 2 is accepted, and the loop, at user 2's entry, removes it. -/
theorem draining_removes_bet : ∃ s t b, run step State.init betting = some s ∧
    (1, b) ∈ s.accepted ∧ b.scheduled = false ∧ s.bets.get 2 = some b ∧
    step s (.place 4 false) = some t ∧ t.current = some 1 ∧ t.bets.get 2 = none ∧
    t.refunds = [] ∧ ¬ t.Right := by
  have hrun : (run step State.init betting).any (fun s =>
      decide ((1, ⟨5, false, 2, 300⟩) ∈ s.accepted) && s.bets.get 2 == some ⟨5, false, 2, 300⟩ &&
        (step s (.place 4 false)).any fun t =>
          t.current == some 1 && t.bets.get 2 == none && t.refunds == [] &&
            decide ((1, ⟨5, false, 2, 300⟩) ∈ t.accepted)) = true := by decide +kernel
  obtain ⟨s, hs, hfacts⟩ := (Option.any_eq_true _ _).mp hrun
  obtain ⟨hbefore, hafter⟩ := Bool.and_eq_true_iff.mp hfacts
  obtain ⟨t, ht, hfacts⟩ := (Option.any_eq_true _ _).mp hafter
  simp only [Bool.and_eq_true, decide_eq_true_eq, beq_iff_eq] at hbefore hfacts
  obtain ⟨⟨⟨hcurrent, hgone⟩, hrefunds⟩, haccepted⟩ := hfacts
  refine ⟨s, t, ⟨5, false, 2, 300⟩, hs, hbefore.1, rfl, hbefore.2, ht, hcurrent, hgone,
    hrefunds, ?_⟩
  intro hright
  have hget := hright.live 1 _ hcurrent haccepted
  rw [hgone] at hget
  cases hget

end Sample

end Scadium.Games.Crash.Drain
