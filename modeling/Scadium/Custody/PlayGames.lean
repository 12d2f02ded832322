/-
Scadium.Custody.PlayGames — every game keeps the invariant of play money.

The games take a stake with `Inv.take`, write it into a position with
`Inv.create` or `Inv.join`, and pay with `Inv.close` or `Inv.pays`.

How the proof goes. A stake that gets a row of its own is `Inv.start`, one that
enters a pooled position `Inv.enter`, a bet settled in its own transaction
`Inv.once`; the flips, the jackpot and the lottery are cases of these. A crash
bet is followed from its debit through the engine's answer (`Inv.decide_`) to
the settle, or to the refund and the deletion of its row; a scheduled one waits
in its row until `drain` moves it into a round. A recovery pays what it has
read from the rows of rounds that were open. A bet at a blackjack table is of a
real account while custody is on, so it is not play money, and what is written
into the row of its round is what the table holds.

`Inv.step` has a case for each event, and `no_late_credit` is the induction
over the run. The last two theorems are runs: one that meets the condition, and
one in which a refund reaches its account after the first deposit.
-/
import Scadium.Custody.PlayMoney

namespace Scadium.Custody.Play

open Scadium.Lib Scadium.Prisma

variable {s s' : State} {userId u : UserId} {p : PositionId} {position : Position} {b stake : Stake}

/-! ## The games -/

/-- A stake taken with a row of its own. -/
theorem Inv.start (h : Inv s) {game : Game} {amount : Nat} {info : DeltaMeta}
    (hstep : s.start game p userId amount info = some s') : Inv s' := by
  obtain ⟨⟨_, _⟩, htake, hcreate⟩ := Option.bind_eq_some_iff.mp hstep
  obtain ⟨h₁, hstake, hreal, _, rfl⟩ := h.take htake
  refine h₁.create hcreate ?_ ?_ (by simp) ?_
  · simp [hstake]
  · intro b hb hplay
    rw [List.mem_singleton.mp hb] at hplay ⊢
    rw [hreal]
    simpa [hstake] using hplay
  · intro b hb t c hc heq
    obtain ⟨position, hget, -, hmem⟩ := h.called t c hc
    have hlt := h.fresh _ position hget c.stake hmem
    rw [heq, List.mem_singleton.mp hb, hstake] at hlt
    exact absurd hlt (Nat.lt_irrefl _)

theorem Inv.enter (h : Inv s) {game : Game} {amount : Nat} {info : DeltaMeta}
    (hgame : game = .jackpot ∨ game = .lottery)
    (hstep : s.enter game p userId amount info = some s') : Inv s' := by
  unfold State.enter at hstep
  split at hstep
  · cases hstep
  · rename_i position hactive
    obtain ⟨hget, rfl, -⟩ := activeAt_eq_some.mp hactive
    obtain ⟨⟨_, _⟩, htake, hset⟩ := Option.bind_eq_some_iff.mp hstep
    obtain ⟨h₁, hstake, hreal, _, rfl⟩ := h.take htake
    cases hset
    refine h₁.join hget ?_ ?_ ?_ ?_ ?_
    · simp [hstake]
    · intro hplay
      rw [hreal]
      simpa [hstake] using hplay
    · intro hcrash
      rcases hgame with hgame | hgame <;> rw [hgame] at hcrash <;> cases hcrash
    · rcases hgame with hgame | hgame <;> simp [hgame]
    · rcases hgame with hgame | hgame <;> simp [hgame]

theorem Inv.once (h : Inv s) {amount payout : Nat} {debit credit : DeltaMeta}
    (hstep : s.once userId amount payout debit credit = some s') : Inv s' := by
  obtain ⟨⟨_, _⟩, htake, hpay⟩ := Option.bind_eq_some_iff.mp hstep
  obtain ⟨h₁, hstake, hreal, _, rfl⟩ := h.take htake
  refine (h₁.pays (pay_ok (committed_eq_some.mp hpay)) ?_).1
  rintro b rfl hplay
  rw [hreal]
  simpa [hstake] using hplay

theorem Inv.joinFlip (h : Inv s) {payouts : List (Stake × Nat)}
    (hstep : joinFlip s p userId payouts = some s') : Inv s' := by
  unfold Play.joinFlip at hstep
  split at hstep
  · rename_i game active creator hactive
    obtain ⟨hget, rfl, rfl⟩ := activeAt_eq_some.mp hactive
    split at hstep
    · cases hstep
    · obtain ⟨⟨stake, _⟩, htake, hclose⟩ := Option.bind_eq_some_iff.mp hstep
      obtain ⟨h₁, hstake, hreal, _, rfl⟩ := h.take htake
      have hjoin := h₁.join (p := p) (b := stake) hget
      refine (hjoin ?_ ?_ ?_ ?_ ?_).close_own hclose
      · simp [hstake]
      · intro hplay
        rw [hreal]
        simpa [hstake] using hplay
      · exact nofun
      · simp
      · simp
  · cases hstep

theorem Inv.cancelOpenFlip (h : Inv s) (hstep : cancelOpenFlip s p = some s') : Inv s' := by
  unfold Play.cancelOpenFlip at hstep
  split at hstep
  · cases hstep
  · exact h.close_own hstep

theorem Inv.enterJackpot (h : Inv s) {amount : Nat}
    (hstep : enterJackpot s p userId amount = some s') : Inv s' := by
  unfold Play.enterJackpot at hstep
  split at hstep
  · cases hstep
  · split at hstep
    · exact h.enter (.inl rfl) hstep
    · cases hstep

theorem Inv.settleJackpot (h : Inv s) {refund : Bool} {payouts : List (Stake × Nat)}
    (hstep : settleJackpot s p refund payouts = some s') : Inv s' := by
  unfold Play.settleJackpot at hstep
  split at hstep
  · exact h.close_own hstep
  · exact h.close_own hstep

theorem Inv.buyTickets (h : Inv s) {debitLamports : Nat}
    (hstep : buyTickets s p userId debitLamports = some s') : Inv s' := by
  unfold Play.buyTickets at hstep
  split at hstep
  · cases hstep
  · split at hstep
    · exact h.enter (.inr rfl) hstep
    · cases hstep

/-! ### Crash -/

theorem addRow_ok (h : s.addRow p b = some s') : ∃ position, s.positions.get p = some position ∧
    position.game = .crash ∧ (∀ b' ∈ position.stakes, b'.userId ≠ b.userId) ∧
    s' = s.setPosition p { position with stakes := position.stakes ++ [b] } := by
  unfold State.addRow at h
  split at h
  · cases h
  · rename_i position hget
    split at h
    · rename_i hguard
      cases h
      refine ⟨position, hget, hguard.1, ?_, rfl⟩
      simpa using hguard.2
    · cases h

theorem Inv.call_id (h : Inv s) {t : SessionId} {c : Bet} (hc : s.bets t = some c) :
    c.stake.id < s.next := by
  obtain ⟨position, hget, -, hmem⟩ := h.called t c hc
  exact h.fresh _ position hget _ hmem

theorem Inv.ride_id (h : Inv s) (hb : Rides s p b) : b.id < s.next := by
  obtain ⟨position, hget, -, hmem⟩ := h.riding p b hb
  exact h.fresh _ position hget _ hmem

theorem Inv.placeBet (h : Inv s) {t : SessionId} {i : Inst} {amount : Nat}
    (hstep : placeBet s t i p userId amount = some s') : Inv s' := by
  unfold Play.placeBet at hstep
  split at hstep
  · cases hstep
  · rename_i hnone
    obtain ⟨⟨stake, _⟩, htake, hstep⟩ := Option.bind_eq_some_iff.mp hstep
    obtain ⟨_, hrow, hstep⟩ := Option.bind_eq_some_iff.mp hstep
    cases hstep
    obtain ⟨h₁, hstake, hreal, _, rfl⟩ := h.take htake
    obtain ⟨position, hget, hgame, huser, rfl⟩ := addRow_ok hrow
    have hget : s.positions.get p = some position := hget
    have hplayer : stake.play = true → s.real stake.userId = false := by
      intro hplay
      simpa [hstake] using hplay
    have hid : stake.id = s.next := by rw [hstake]
    have hne : ∀ b : Stake, b.id < s.next → b ≠ stake := by
      rintro b hlt rfl
      omega
    refine Inv.addBet (h₁.join hget (by simp [hid]) (fun hplay => (hreal _).trans (hplayer hplay))
      (fun _ => huser) (by simp [hgame]) (by simp [hgame])) hnone ?_ ?_ ?_ ?_ ?_
    · exact ⟨_, Table.get_set_self .., hgame, List.mem_append_right _ (List.mem_singleton.mpr rfl)⟩
    · exact fun hplay => (hreal _).trans (hplayer hplay)
    · exact fun t' d hd => hne _ (h.call_id hd)
    · exact fun q b hb => hne b (h.ride_id (p := q) hb)
    · intro q position' hget' hscheduled b hb _ heq
      have hqp : q ≠ p := by
        rintro rfl
        rw [show State.positions _ = s.positions.set q _ from rfl, Table.get_set_self] at hget'
        cases hget'
        rw [hgame] at hscheduled
        cases hscheduled
      have hold : s.positions.get q = some position' :=
        (s.positions.get_set_ne hqp).symm.trans hget'
      exact hne b (h.fresh q position' hold b hb) heq.symm

theorem Inv.decide_ (h : Inv s) {t : SessionId} {accept : Bool}
    (hstep : decide_ s t accept = some s') : Inv s' := by
  unfold Play.decide_ at hstep
  split at hstep
  · rename_i i p stake hc
    split at hstep
    · split at hstep
      · cases hstep
      · rename_i held hheld
        split at hstep
        · rename_i hguard
          cases hstep
          have h₁ := h.endBet hc
          refine h₁.setHeld fun b hb => ?_
          rcases List.mem_append.mp hb with hmem | hmem
          · exact .inl (.inl ⟨i, held, hheld, rfl, hmem⟩)
          · rw [List.mem_singleton.mp hmem]
            refine .inr ⟨?_, ?_⟩
            · have hrow := h.called t _ hc
              rw [← hguard.1] at hrow
              exact hrow
            · intro t' c' hc' heq
              have ht : t' ≠ t := by
                rintro rfl
                rw [show State.bets _ = Function.update s.bets t' none from rfl,
                  Function.update_self] at hc'
                cases hc'
              exact ht (h.distinct t' t c' _ (of_update_none hc') hc heq.symm)
        · cases hstep
    · cases hstep
      refine h.setBet hc fun d hd => ?_
      cases hd
      exact ⟨rfl, rfl, fun _ => by simp⟩
  · cases hstep

theorem Inv.refundBet (h : Inv s) {t : SessionId} (hstep : refundBet s t = some s') : Inv s' := by
  unfold Play.refundBet at hstep
  split at hstep
  · rename_i i p stake hc
    obtain ⟨_, hpay, hset⟩ := Option.bind_eq_some_iff.mp hstep
    cases hset
    have hdue : ∀ b, b = stake → b.play = true → s.real b.userId = false := by
      rintro b rfl hplay
      exact h.waits t _ hc (by simp) hplay
    obtain ⟨h₁, _, _, _, rfl⟩ := h.pays (pay_ok (committed_eq_some.mp hpay)) hdue
    refine h₁.setBet (c := ⟨i, p, stake, .rejected⟩) hc fun d hd => ?_
    cases hd
    exact ⟨rfl, rfl, fun hne => absurd rfl hne⟩
  · cases hstep

theorem Inv.deleteBet (h : Inv s) {t : SessionId} {deleted : Bool}
    (hstep : deleteBet s t deleted = some s') : Inv s' := by
  unfold Play.deleteBet at hstep
  split at hstep
  · rename_i i p stake hc
    cases hstep
    have h₁ := h.endBet hc
    cases deleted with
    | false => exact h₁
    | true =>
      obtain ⟨position, hget, hgame, hmem⟩ := h.called t _ hc
      -- the only row of the user in the round is the call's own
      have hkeep : ∀ b, CrashRow s p b → b ≠ stake →
          b ∈ position.stakes.filter (·.userId != stake.userId) := by
        intro b hb hne
        have huser : b.userId ≠ stake.userId := by
          intro huser
          exact hne (h.eq_of_user hb ⟨position, hget, hgame, hmem⟩ huser)
        obtain ⟨_, hget', -, hmem'⟩ := hb
        rw [hget] at hget'
        cases hget'
        exact List.mem_filter.mpr ⟨hmem', by simpa using huser⟩
      have hsub : ∀ b ∈ position.stakes.filter (·.userId != stake.userId), b ∈ position.stakes :=
        fun b hb => (List.mem_filter.mp hb).1
      have hnotable : ∀ d, s.dealers p ≠ some d := by
        intro d hd
        have htable := h.game_of_table hd hget
        rw [hgame] at htable
        cases htable
      simp only [if_true, State.deleteRows, hget]
      refine h₁.setPosition
        (fun b hb => h.fresh p position hget b (hsub b hb))
        (fun hactive b hb => h.playing p position hget hactive b (hsub b hb)) ?_ ?_ ?_ ?_
        (fun d hd => absurd hd (hnotable d)) (fun _ d hd => absurd hd (hnotable d)) ?_
      · exact fun hcrash => (h.sole p position hget hcrash).sublist
          (List.Sublist.map _ List.filter_sublist)
      · intro hscheduled
        simp only at hscheduled
        rw [hgame] at hscheduled
        cases hscheduled
      · rintro t' c hc' rfl
        refine ⟨hgame, hkeep _ (h.called t' c (of_update_none hc')) ?_⟩
        intro heq
        have ht : t' = t := h.distinct t' t c _ (of_update_none hc') hc heq
        subst ht
        rw [show State.bets _ = Function.update s.bets t' none from rfl,
          Function.update_self] at hc'
        cases hc'
      · exact fun b hb => ⟨hgame, hkeep b (h.riding p b hb) (h.apart t _ p b hc hb)⟩
      · rintro k rc hrc rfl hblackjack
        simp only at hblackjack
        rw [hgame] at hblackjack
        cases hblackjack
  · cases hstep

theorem Inv.install (h : Inv s) {i : Inst} (hstep : install s i p = some s') : Inv s' := by
  unfold Play.install at hstep
  split at hstep
  · cases hstep
    exact h.setHeld nofun
  · cases hstep

theorem Inv.fly (h : Inv s) {i : Inst} (hstep : fly s i = some s') : Inv s' := by
  unfold Play.fly at hstep
  split at hstep
  · rename_i p bets hheld
    cases hstep
    exact h.setHeld fun b hb => .inl (.inl ⟨i, _, hheld, rfl, hb⟩)
  · cases hstep

/-- The bets captured at the bust are those of the round in memory. -/
theorem Inv.bust (h : Inv s) {k : SessionId} {i : Inst} (hstep : bust s k i = some s') :
    Inv s' := by
  unfold Play.bust at hstep
  split at hstep
  · rename_i p bets hheld hnone
    cases hstep
    have hrides : ∀ b ∈ bets, Rides s p b := fun b hb => .inl ⟨i, _, hheld, rfl, hb⟩
    refine h.ride fun q b hb => .inl ?_
    rcases hb with ⟨j, held, hj, rfl, hmem⟩ | ⟨k', st, hk, rfl, hmem⟩
    · simp only at hj
      by_cases hi : j = i
      · subst hi
        rw [Function.update_self] at hj
        cases hj
        exact hrides b hmem
      · rw [Function.update_of_ne hi] at hj
        exact .inl ⟨j, held, hj, rfl, hmem⟩
    · simp only at hk
      by_cases hk' : k' = k
      · subst hk'
        rw [Function.update_self] at hk
        cases hk
        exact hrides b hmem
      · rw [Function.update_of_ne hk'] at hk
        exact .inr ⟨k', st, hk, rfl, hmem⟩
  · cases hstep

theorem Inv.forget (h : Inv s) {i : Inst} (hstep : forget s i userId = some s') : Inv s' := by
  obtain ⟨held, hheld, rfl⟩ := Option.map_eq_some_iff.mp hstep
  refine h.setHeld fun b hb => .inl (.inl ⟨i, held, hheld, rfl, ?_⟩)
  exact (List.mem_filter.mp hb).1

/-- The round that is claimed is the one the bets were captured from, so they
have their rows in it. -/
theorem Inv.settleCrash (h : Inv s) {k : SessionId} {payouts : List (Stake × Nat)}
    (hallowed : ∀ st current, s.settles k = some st → s.held st.inst = some current →
      current.round = st.round)
    (hstep : settleCrash s k payouts = some s') : Inv s' := by
  unfold Play.settleCrash at hstep
  split at hstep
  · cases hstep
  · rename_i st hst
    split at hstep
    · cases hstep
    · rename_i current hheld
      obtain ⟨_, hclose, hset⟩ := Option.bind_eq_some_iff.mp hstep
      cases hset
      have hround := hallowed st current hst hheld
      obtain ⟨h₁, -⟩ := h.close hclose fun position hget _ hactive b hb => by
        obtain ⟨_, hget', -, hmem⟩ := h.riding st.round b (.inr ⟨k, st, hst, rfl, hb⟩)
        rw [← hround, hget] at hget'
        cases hget'
        exact h.playing _ position hget hactive b hmem
      exact h₁.endSettle k

theorem scheduledOf_ok (hfind : s.scheduledOf userId = some (p, position)) :
    s.positions.get p = some position ∧ position.active = true ∧ position.game = .scheduled := by
  have hmem := List.mem_of_find?_eq_some hfind
  have hguard := List.find?_some hfind
  simp only [Bool.and_eq_true, beq_iff_eq] at hguard
  exact ⟨s.positions.get_eq_some.mpr hmem, hguard.1.1, hguard.1.2⟩

theorem Inv.scheduleBet (h : Inv s) {t : SessionId} {i : Inst} {amount : Nat}
    (hstep : scheduleBet s t i p userId amount = some s') : Inv s' := by
  unfold Play.scheduleBet at hstep
  split at hstep
  · obtain ⟨⟨stake, _⟩, htake, hstep⟩ := Option.bind_eq_some_iff.mp hstep
    obtain ⟨s₂, hcreate, hset⟩ := Option.bind_eq_some_iff.mp hstep
    cases hset
    obtain ⟨h₁, hstake, hreal, _, rfl⟩ := h.take htake
    have hplayer : stake.play = true → State.real s₂ stake.userId = false := by
      intro hplay
      obtain ⟨-, rfl⟩ := createPosition_ok hcreate
      refine (hreal _).trans ?_
      simpa [hstake] using hplay
    refine (h₁.create hcreate ?_ ?_ (by simp) ?_).addSchedule hplayer
    · simp [hstake]
    · intro b hb hplay
      rw [List.mem_singleton.mp hb] at hplay ⊢
      rw [hreal]
      simpa [hstake] using hplay
    · intro b hb t' c hc heq
      have hlt := h.call_id hc
      rw [heq, List.mem_singleton.mp hb, hstake] at hlt
      exact absurd hlt (Nat.lt_irrefl _)
  · cases hstep

theorem Inv.queue (h : Inv s) {t : SessionId} (hstep : queue s t = some s') : Inv s' := by
  obtain ⟨c, -, rfl⟩ := Option.map_eq_some_iff.mp hstep
  exact h.endSchedule t

theorem Inv.deleteScheduled (h : Inv s) (userId : UserId) : Inv (s.deleteScheduled userId) := by
  unfold State.deleteScheduled
  split
  · exact h
  · rename_i p position hfind
    exact h.deactivate (scheduledOf_ok hfind).1

theorem Inv.refundSchedule (h : Inv s) {t : SessionId} (hstep : refundSchedule s t = some s') :
    Inv s' := by
  unfold Play.refundSchedule at hstep
  split at hstep
  · cases hstep
  · rename_i i stake hc
    obtain ⟨_, hpay, hset⟩ := Option.bind_eq_some_iff.mp hstep
    cases hset
    obtain ⟨h₁, -⟩ := h.pays (pay_ok (committed_eq_some.mp hpay)) fun b hb hplay => by
      subst hb
      exact h.scheduled t _ hc hplay
    exact (h₁.deleteScheduled stake.userId).endSchedule t

theorem Inv.cancelScheduled (h : Inv s) (hstep : cancelScheduled s userId = some s') : Inv s' := by
  unfold Play.cancelScheduled at hstep
  split at hstep
  · cases hstep
  · exact h.close_own hstep

theorem Inv.recoverScheduled (h : Inv s) (hstep : recoverScheduled s p = some s') : Inv s' := by
  unfold Play.recoverScheduled at hstep
  split at hstep
  · cases hstep
  · exact h.close_own hstep

/-- The stake moves from its scheduled row into the round, with its row. -/
theorem Inv.drain (h : Inv s) {i : Inst} (hstep : drain s i userId = some s') : Inv s' := by
  unfold Play.drain at hstep
  split at hstep
  · rename_i p bets q game active stake hheld hfind
    split at hstep
    · cases hstep
    · obtain ⟨_, hrow, hset⟩ := Option.bind_eq_some_iff.mp hstep
      cases hset
      obtain ⟨hget, rfl, rfl⟩ := scheduledOf_ok hfind
      have h₁ := h.deactivate hget
      have hmem : stake ∈ [stake] := List.mem_singleton.mpr rfl
      obtain ⟨_, hget', hgame, huser, rfl⟩ := addRow_ok hrow
      have hjoin := h₁.join (b := stake) hget'
      refine (hjoin (h.fresh q _ hget stake hmem) (h.playing q _ hget rfl stake hmem)
        (fun _ => huser) (by simp [hgame]) (by simp [hgame])).setHeld ?_
      intro b hb
      rcases List.mem_append.mp hb with hb | hb
      · exact .inl (.inl ⟨i, _, hheld, rfl, hb⟩)
      · rw [List.mem_singleton.mp hb]
        refine .inr ⟨?_, fun t c hc heq => ?_⟩
        · exact ⟨_, Table.get_set_self .., hgame, List.mem_append_right _ hmem⟩
        · exact h.parked q _ hget rfl stake hmem rfl t c hc heq.symm
  · cases hstep

/-! ### Recoveries -/

theorem Inv.readRows (h : Inv s) {k : SessionId} {i : Inst} (hstep : readRows s k i p = some s') :
    Inv s' := by
  unfold Play.readRows at hstep
  split at hstep
  · rename_i position hnone hget
    cases hstep
    exact h.addRecovery hget
  · cases hstep

theorem Inv.recoverCrash (h : Inv s) {k : SessionId} {payouts : List (Stake × Nat)}
    (hstep : recoverCrash s k payouts = some s') : Inv s' := by
  unfold Play.recoverCrash at hstep
  split at hstep
  · cases hstep
  · rename_i rc hrc
    split at hstep
    · cases hstep
    · rename_i position hget
      split at hstep
      · rename_i hrows
        obtain ⟨_, hclose, hset⟩ := Option.bind_eq_some_iff.mp hstep
        cases hset
        obtain ⟨h₁, -⟩ := h.close hclose fun position' hget' _ hactive b hb => by
          rw [hget] at hget'
          cases hget'
          exact h.playing _ position hget hactive b (hrows b hb)
        exact h₁.endRecovery k
      · cases hstep

theorem Inv.recoverBlackjack (h : Inv s) {k : SessionId} (hstep : recoverBlackjack s k = some s') :
    Inv s' := by
  unfold Play.recoverBlackjack at hstep
  split at hstep
  · cases hstep
  · rename_i rc hrc
    obtain ⟨_, hclose, hset⟩ := Option.bind_eq_some_iff.mp hstep
    cases hset
    obtain ⟨h₁, -⟩ := h.close hclose fun position hget hgame hactive b hb hplay =>
      (h.rows_read hrc hget hgame b hb hplay).1 hactive
    exact h₁.endRecovery k

/-! ### Blackjack -/

theorem Inv.openTable (h : Inv s) {i : Inst} (hstep : openTable s i p = some s') : Inv s' := by
  obtain ⟨_, hcreate, rfl⟩ := Option.map_eq_some_iff.mp hstep
  have h₁ := h.create hcreate (by simp) (by simp) (by simp) (by simp)
  obtain ⟨-, rfl⟩ := createPosition_ok hcreate
  refine h₁.setDealer (by simp) (by simp) (by simp) (s.positions.get_set_self) rfl (by simp)

theorem Inv.assertDepositedOnly (h : Inv s) {t : SessionId} {i : Inst}
    (hstep : assertDepositedOnly s t i userId = some s') : Inv s' := by
  unfold Play.assertDepositedOnly at hstep
  split at hstep
  · cases hstep
  · rename_i hguard
    cases hstep
    refine h.addAsserted fun hon => ?_
    simpa [hon] using hguard

/-- A bet at a table is of a real user while custody is on, so it is not play
money then. -/
theorem Inv.seat (h : Inv s) {d : Dealer} {amount : Nat} (hd : s.dealers p = some d)
    (hreal : s.enabled = true → s.real userId = true)
    (hstep : s.seat p d userId amount = some s') : Inv s' := by
  obtain ⟨⟨stake, _⟩, htake, hset⟩ := Option.bind_eq_some_iff.mp hstep
  cases hset
  obtain ⟨h₁, hstake, hsame, _, rfl⟩ := h.take htake
  obtain ⟨position, hget, hgame⟩ := h.tables p d hd
  have hseats : ∀ {P : Stake → Prop}, (∀ b ∈ d.seats, P b) → P stake →
      ∀ b ∈ d.seats ++ [stake], P b := by
    intro P hold hnew b hb
    rcases List.mem_append.mp hb with hb | hb
    · exact hold b hb
    · rw [List.mem_singleton.mp hb]
      exact hnew
  refine h₁.setDealer (hseats (h₁.numbered p d hd) (by simp [hstake]))
    (hseats (fun b hb hplay => (h₁.seats p d hd b hb hplay).1) ?_) ?_ hget hgame
    (fun hon => h.dealt hon p d position hd hget)
  · intro hplay
    rw [hsame]
    simpa [hstake] using hplay
  · intro hon
    refine hseats (fun b hb => ⟨?_, h₁.seated hon p d hd b hb⟩) ⟨?_, ?_⟩
    · cases hplay : b.play with
      | false => rfl
      | true =>
        have hoff := (h₁.seats p d hd b hb hplay).2
        rw [hon] at hoff
        cases hoff
    · simp [hstake, hreal hon]
    · rw [hsame, hstake]
      exact hreal hon

theorem Inv.betBlackjack (h : Inv s) {t : SessionId} {amount : Nat}
    (hstep : betBlackjack s t p amount = some s') : Inv s' := by
  unfold Play.betBlackjack at hstep
  split at hstep
  · rename_i i userId d hasserted hd
    obtain ⟨_, hseat, rfl⟩ := Option.map_eq_some_iff.mp hstep
    have h₁ := h.seat hd (fun hon => h.asserted hon t i userId hasserted) hseat
    exact h₁.endAsserted t
  · cases hstep

theorem Inv.doubleBlackjack (h : Inv s) {amount : Nat}
    (hstep : doubleBlackjack s p userId amount = some s') : Inv s' := by
  unfold Play.doubleBlackjack at hstep
  split at hstep
  · cases hstep
  · rename_i d hd
    split at hstep
    · rename_i hseated
      obtain ⟨b, hb, huser⟩ := List.any_eq_true.mp hseated
      refine h.seat hd (fun hon => ?_) hstep
      rw [← beq_iff_eq.mp huser]
      exact h.seated hon p d hd b hb
    · cases hstep

theorem Inv.creditBlackjack (h : Inv s) {amount : Nat}
    (hstep : creditBlackjack s p stake amount = some s') : Inv s' := by
  unfold Play.creditBlackjack at hstep
  split at hstep
  · cases hstep
  · rename_i d hd
    split at hstep
    · rename_i hseat
      refine (h.pays (pay_ok (committed_eq_some.mp hstep)) fun b hb hplay => ?_).1
      subst hb
      exact (h.seats p d hd b hseat hplay).1
    · cases hstep

/-- The stakes of the table are written into its row. -/
theorem Inv.persist (h : Inv s) {keep : Stake → Bool} (hstep : persist s p keep = some s') :
    Inv s' := by
  unfold Play.persist at hstep
  split at hstep
  · rename_i d position hd hget
    cases hstep
    have hgame : position.game = .blackjack := h.game_of_table hd hget
    have hseat : ∀ b ∈ d.seats.filter keep, b ∈ d.seats := fun b hb => (List.mem_filter.mp hb).1
    have hoff : s.enabled = true → ∀ b ∈ d.seats, b.play = false := by
      intro hon b hb
      cases hplay : b.play with
      | false => rfl
      | true =>
        have hoff := (h.seats p d hd b hb hplay).2
        rw [hon] at hoff
        cases hoff
    have hrow : ∀ b, ¬ CrashRow s p b := by
      rintro b ⟨_, hget', hcrash, -⟩
      rw [hget] at hget'
      cases hget'
      rw [hgame] at hcrash
      cases hcrash
    refine h.setPosition (fun b hb => h.numbered p d hd b (hseat b hb))
      (fun _ b hb hplay => (h.seats p d hd b (hseat b hb) hplay).1) ?_ ?_ ?_
      (fun b hb => absurd (h.riding p b hb) (hrow b)) (fun _ _ => hgame)
      (fun hon _ _ b hb => hoff hon b (hseat b hb)) ?_
    · intro hcrash
      rw [show position.game = .crash from hcrash] at hgame
      cases hgame
    · intro hscheduled
      rw [show position.game = .scheduled from hscheduled] at hgame
      cases hgame
    · rintro t c hc rfl
      exact absurd (h.called t c hc) (hrow _)
    · rintro k rc hrc rfl - b hb hplay
      obtain ⟨hplayer, hstakes⟩ := h.rows_read hrc hget hgame b hb hplay
      refine ⟨hplayer, fun hon => ?_⟩
      -- with custody on, no play money is in the row
      have hreal := h.dealt hon _ d position hd hget b (hstakes hon)
      rw [hreal] at hplay
      cases hplay
  · cases hstep

theorem Inv.settleBlackjack (h : Inv s) {payouts : List (Stake × Nat)}
    (hstep : settleBlackjack s p payouts = some s') : Inv s' := by
  unfold Play.settleBlackjack at hstep
  split at hstep
  · cases hstep
  · rename_i d hd
    exact (h.close hstep fun _ _ _ _ b hb hplay => (h.seats p d hd b hb hplay).1).1

/-! ## Runs -/

/-- Every step keeps the invariant, where it is allowed. -/
theorem Inv.step (h : Inv s) {e : Event} (hallowed : Allowed s e) (hstep : step s e = some s') :
    Inv s' := by
  cases e with
  | restart enabled =>
    cases hstep
    exact h.restart enabled
  | kill i =>
    cases hstep
    exact h.kill i
  | otherCustody =>
    cases hstep
    exact h.money (fun _ => rfl) le_rfl h.good
  | otherMovement =>
    obtain ⟨_, hmove, rfl⟩ := Option.map_eq_some_iff.mp hstep
    exact h.money (real_moveBalance (committed_eq_some.mp hmove)) le_rfl h.good
  | creditDeposit => exact h.creditDeposit hallowed hstep
  | createRound =>
    simp only [Play.step] at hstep
    split at hstep
    · exact h.create hstep (by simp) (by simp) (by simp) (by simp)
    · cases hstep
  | enterJackpot => exact h.enterJackpot hstep
  | settleJackpot => exact h.settleJackpot hstep
  | buyTickets => exact h.buyTickets hstep
  | settleDraw | playHouse | advanceStatefulRound => exact h.close_own hstep
  | createFlip | startStatefulRound => exact h.start hstep
  | createHouseFlip | settleInstantBet => exact h.once hstep
  | joinFlip => exact h.joinFlip hstep
  | cancelOpenFlip => exact h.cancelOpenFlip hstep
  | placeBet => exact h.placeBet hstep
  | decide => exact h.decide_ hstep
  | refundBet => exact h.refundBet hstep
  | deleteBet => exact h.deleteBet hstep
  | install => exact h.install hstep
  | fly => exact h.fly hstep
  | bust => exact h.bust hstep
  | settleCrash => exact h.settleCrash hallowed hstep
  | forget => exact h.forget hstep
  | scheduleBet => exact h.scheduleBet hstep
  | queue => exact h.queue hstep
  | refundSchedule => exact h.refundSchedule hstep
  | cancelScheduled => exact h.cancelScheduled hstep
  | recoverScheduled => exact h.recoverScheduled hstep
  | drain => exact h.drain hstep
  | readRows => exact h.readRows hstep
  | recoverCrash => exact h.recoverCrash hstep
  | recoverBlackjack => exact h.recoverBlackjack hstep
  | openTable => exact h.openTable hstep
  | assertDepositedOnly => exact h.assertDepositedOnly hstep
  | betBlackjack => exact h.betBlackjack hstep
  | doubleBlackjack => exact h.doubleBlackjack hstep
  | creditBlackjack => exact h.creditBlackjack hstep
  | persist => exact h.persist hstep
  | settleBlackjack => exact h.settleBlackjack hstep

/-- Where no account is converted while a bet of its own is exposed, and every
crash settle claims the round of its bets, a credit for a stake of play money
is one to an account that is not converted then. -/
theorem no_late_credit {users : UserId → Option User} {es : List Event}
    (hallowed : Along Play.step Allowed (.boot users) es)
    (hrun : run Play.step (.boot users) es = some s) :
    ∀ c ∈ s.credits, c.1.play = true → c.2 = false := by
  have hinv : Inv s := run_induct (fun _ _ _ hallowed h hstep => h.step hallowed hstep)
    (Inv.boot users) hallowed hrun
  exact hinv.good

namespace PlaySample

def ada : User :=
  ⟨none, "ada", false, none, none, none, fun _ => 1000000000, 0, 0, 0, 0, 0⟩

def users : UserId → Option User := fun u => if u = 7 then some ada else none

def deposit : CustodyTransfer := depositRow "sig" ⟨1, 1000000, ["ada"]⟩ [(7, "ada")]

def env : Env := ⟨true, [], 0, 10, none, false, 2⟩

/-- The bet comes too late for the engine. -/
def rejected : List Event :=
  [.createRound .crash 0, .install 0 0, .placeBet 3 0 0 7 100, .fly 0, .decide 3 false]

def settle : List Event := [.bust 4 0, .settleCrash 4 []]

def refund : List Event := [.refundBet 3, .deleteBet 3 true]

def firstDeposit : List Event :=
  [.restart true, .otherCustody .empty .empty (Table.empty.set 5 deposit), .creditDeposit env 5]

/-- A bet that pays, and the refund, come before the deposit. -/
def before : List Event := .createHouseFlip 1 7 100 195 :: rejected ++ refund

/-- The deposit is credited between the round's end and the refund. -/
def between : List Event := .restart true :: rejected ++ settle ++ firstDeposit.tail ++ refund

end PlaySample

theorem no_late_credit_sample : ∃ s,
    run Play.step (.boot PlaySample.users) (PlaySample.before ++ PlaySample.firstDeposit) = some s ∧
    s.credits.map (fun c => c.1.play) = [true, true] ∧ s.real 7 = true ∧
    ∀ c ∈ s.credits, c.1.play = true → c.2 = false := by
  obtain ⟨s, hs, hcredits, hreal⟩ : ∃ s,
      run Play.step (.boot PlaySample.users)
        (PlaySample.before ++ PlaySample.firstDeposit) = some s ∧ s.credits.map (fun c => c.1.play) = [true, true] ∧ s.real 7 = true := by decide +kernel
  refine ⟨s, hs, hcredits, hreal, no_late_credit ?_ hs⟩
  refine along_append.mpr ⟨?_, ?_⟩
  · -- no deposit and no crash settle among these steps
    simp [PlaySample.before, PlaySample.rejected, PlaySample.refund, Along, Allowed]
  · intro t _
    refine ⟨trivial, fun s₁ h₁ => ⟨trivial, fun s₂ h₂ => ⟨?_, fun _ _ => trivial⟩⟩⟩
    cases h₁
    cases h₂
    -- the restart has ended every request
    rintro u - (⟨t, c, hc, -⟩ | ⟨t, c, hc, -⟩)
    · cases hc
    · cases hc

/-- The refund of a bet of play money reaches the account after its first
deposit: the round is terminal, and the engine's refusal is not a position. -/
theorem refund_after_conversion : ∃ s,
    run Play.step (.boot PlaySample.users) PlaySample.between = some s ∧
    s.credits = [(⟨0, 7, 100, true⟩, true)] := by
  decide +kernel

end Scadium.Custody.Play
