/-
Scadium.Games.Crash.Stakes — every debited crash stake is refunded once, or
settled once by its round.

For one user and one round at most one call holds a stake, debited and not
refunded, at any time: its durable row is unique by (round, user). The
ledger's net of stakes and refunds is minus that stake, and 0 when there is
none; the Bet rows of the round hold that stake once the round is terminal,
and nothing before. A stake that is neither back nor settled is pending: its
call will still decide, or its row waits for the settle of its round.

This holds in the runs that are `Orderly`. The places where the code does not
see to that itself are one each: the refund of the service, the recovery's
read before its transaction, the engine's decision, the live settle's
`this.current`, a process that stops, and the unguarded `running` write.
-/
import Mathlib.Data.List.Nodup
import Scadium.Games.Crash.LateBet

namespace Scadium.Games.Crash

open Scadium.Prisma

variable {cfg : Config} {s s' t : State}

/-! ## Calls and their stakes -/

/-- Debited and not refunded. -/
def BetPhase.holds : BetPhase → Bool
  | .committed | .accepted | .rejected | .unpaid => true
  | .captured | .ended | .refunded | .done => false

/-- The durable row is there. -/
def BetPhase.hasRow : BetPhase → Bool
  | .committed | .accepted | .rejected | .unpaid | .refunded => true
  | .captured | .ended | .done => false

/-- The row was created. -/
def BetPhase.debited : BetPhase → Bool
  | .captured | .ended => false
  | .committed | .accepted | .rejected | .unpaid | .refunded | .done => true

theorem BetPhase.hasRow_of_holds {phase : BetPhase} (h : phase.holds = true) :
    phase.hasRow = true := by
  cases phase with
  | committed | accepted | rejected | unpaid => rfl
  | captured | ended | refunded | done => cases h

theorem BetPhase.debited_of_hasRow {phase : BetPhase} (h : phase.hasRow = true) :
    phase.debited = true := by
  cases phase with
  | captured => cases h
  | ended => cases h
  | _ => rfl

/-- The call will still decide on its stake. -/
def Placing.waits (p : Placing) : Bool :=
  p.alive && (p.phase == .committed || p.phase == .rejected)

/-- The key of the call's durable row. -/
def Placing.rowKey (p : Placing) (c : EntryId) : RowKey :=
  ⟨c, p.call.roundId, p.call.userId, p.call.amountLamports⟩

/-- No call holds a stake of the user on the round. -/
def Free (s : State) (r : RoundId) (u : UserId) : Prop :=
  ∀ c p, s.calls c = some p → p.call.roundId = r → p.call.userId = u → p.phase.holds = false

/-- The calls whose bet the engine has accepted. -/
def acceptedBets (s : State) : Set BetCall :=
  {call | ∃ c p, s.calls c = some p ∧ p.phase = .accepted ∧ p.call = call}

/-- The stakes that some memory holds for a round: the engine's bets, or
those captured by a settle. -/
def Recorded (s : State) (r : RoundId) (paid : List (UserId × Nat)) : Prop :=
  (∃ q round, s.held q = some round ∧ round.id = r ∧ livePaid round.bets = paid) ∨
    ∃ k st, s.settles k = some st ∧ st.roundId = r ∧ livePaid st.bets = paid

/-! ## The invariant -/

/-- These are the accepted stakes on the round. -/
structure Book (accepted : Set BetCall) (r : RoundId) (paid : List (UserId × Nat)) : Prop where
  nodup : (paid.map (·.1)).Nodup
  sound : ∀ x ∈ paid, ∃ call ∈ accepted, call.roundId = r ∧ call.userId = x.1 ∧
    call.amountLamports = x.2
  complete : ∀ call ∈ accepted, call.roundId = r → (call.userId, call.amountLamports) ∈ paid

/-- The durable rows are those of the calls. -/
structure Rows (s : State) : Prop where
  ids : ((rowKeys s.db).map RowKey.id).Nodup
  keys : ((rowKeys s.db).map fun k => (k.roundId, k.userId)).Nodup
  sound : ∀ k ∈ rowKeys s.db, ∃ p, s.calls k.id = some p ∧ p.phase.debited = true ∧
    k = p.rowKey k.id
  complete : ∀ c p, s.calls c = some p → p.phase.hasRow = true → p.rowKey c ∈ rowKeys s.db

/-- What a recovery has read are rows of calls on its round. -/
def Reads (s : State) : Prop :=
  ∀ k rc, s.recoveries k = some rc → (rc.bets.map (·.userId)).Nodup ∧
    ∀ b ∈ rc.bets, b.roundId = rc.round.id ∧
      ∃ p, s.calls b.id = some p ∧ rowKey b = p.rowKey b.id

/-- The ledger and the Bet rows. -/
structure Accounts (s : State) : Prop where
  net : ∀ c p, s.calls c = some p → p.phase.holds = true →
    stakeNet s.db p.call.roundId p.call.userId = -(p.call.amountLamports : Int)
  free : ∀ r u, Free s r u → stakeNet s.db r u = 0 ∧ betAmounts s.db r u = []
  unsettled : ∀ r u, ¬ Busted s.db r → betAmounts s.db r u = []
  settled : ∀ c p, s.calls c = some p → p.phase.holds = true → Busted s.db p.call.roundId →
    betAmounts s.db p.call.roundId p.call.userId = [p.call.amountLamports] ∨
      betAmounts s.db p.call.roundId p.call.userId = [] ∧ p.waits = true

structure Inv (s : State) : Prop where
  places : Places s
  books : ∀ r paid, Recorded s r paid → Book (acceptedBets s) r paid
  rows : Rows s
  reads : Reads s
  accounts : Accounts s

/-- No crash game has been played yet. -/
structure Fresh (db : Db) : Prop where
  rounds : ∀ r, db.crashRounds r = none
  rows : db.crashBets = []
  net : ∀ r u, stakeNet db r u = 0
  amounts : ∀ r u, betAmounts db r u = []

theorem Inv.boot {db : Db} (h : Fresh db) : Inv (State.boot db) where
  places := Places.boot db
  books := by
    rintro r _ (⟨q, _, hq, -⟩ | ⟨k, _, hk, -⟩)
    · cases hq
    · cases hk
  rows :=
    { ids := by simp [State.boot, rowKeys, h.rows]
      keys := by simp [State.boot, rowKeys, h.rows]
      sound := by simp [State.boot, rowKeys, h.rows]
      complete := by simp [State.boot] }
  reads := by simp [Reads, State.boot]
  accounts :=
    { net := by simp [State.boot]
      free := fun r u _ => ⟨h.net r u, h.amounts r u⟩
      unsettled := fun r u _ => h.amounts r u
      settled := by simp [State.boot] }

/-! ## One stake for each user and round -/

/-- Two rows of one user on one round are one row. -/
theorem Rows.eq_of_key (hs : Rows s) {k k' : RowKey} (hk : k ∈ rowKeys s.db)
    (hk' : k' ∈ rowKeys s.db) (hround : k.roundId = k'.roundId) (huser : k.userId = k'.userId) :
    k = k' :=
  List.inj_on_of_nodup_map hs.keys hk hk' (by simp [hround, huser])

/-- At most one call has a row, so at most one holds a stake. -/
theorem Rows.unique (hs : Rows s) {c c' : EntryId} {p p' : Placing} (hc : s.calls c = some p)
    (hc' : s.calls c' = some p') (hp : p.phase.hasRow = true) (hp' : p'.phase.hasRow = true)
    (hround : p.call.roundId = p'.call.roundId) (huser : p.call.userId = p'.call.userId) :
    c = c' := by
  have heq : p.rowKey c = p'.rowKey c' :=
    hs.eq_of_key (hs.complete c p hc hp) (hs.complete c' p' hc' hp') hround huser
  exact congrArg RowKey.id heq

theorem Rows.unique_holder (hs : Rows s) {c c' : EntryId} {p p' : Placing}
    (hc : s.calls c = some p) (hc' : s.calls c' = some p') (hp : p.phase.holds = true)
    (hp' : p'.phase.holds = true) (hround : p.call.roundId = p'.call.roundId)
    (huser : p.call.userId = p'.call.userId) : c = c' :=
  hs.unique hc hc' (BetPhase.hasRow_of_holds hp) (BetPhase.hasRow_of_holds hp') hround huser

/-! ## Steps that only read, or write elsewhere -/

/-- The accounts do not depend on the durable rows. -/
theorem Accounts.of_eq (hs : Accounts s) (hcalls : s'.calls = s.calls)
    (hnet : stakeNet s'.db = stakeNet s.db) (hamounts : betAmounts s'.db = betAmounts s.db)
    (hbusted : ∀ r, Busted s'.db r ↔ Busted s.db r) : Accounts s' where
  net := by
    rw [hnet, hcalls]
    exact hs.net
  free := by
    intro r u hfree
    rw [hnet, hamounts]
    refine hs.free r u ?_
    rw [Free, hcalls] at hfree
    exact hfree
  unsettled := by
    intro r u hopen
    rw [hamounts]
    exact hs.unsettled r u fun hb => hopen ((hbusted r).mpr hb)
  settled := by
    intro c p hc hp hb
    rw [hcalls] at hc
    rw [hamounts]
    exact hs.settled c p hc hp ((hbusted _).mp hb)

/-- The calls and the readings of the database are as before, and no memory
holds stakes that none held before. -/
structure Quietly (s s' : State) : Prop where
  calls : s'.calls = s.calls
  readings : readings s'.db = readings s.db
  busted : ∀ r, Busted s'.db r ↔ Busted s.db r
  recorded : ∀ r paid, Recorded s' r paid → Recorded s r paid

namespace Quietly

theorem acceptedBets (h : Quietly s s') : acceptedBets s' = acceptedBets s := by
  simp only [Crash.acceptedBets, h.calls]

theorem books (h : Quietly s s') (hs : ∀ r paid, Recorded s r paid → Book (Crash.acceptedBets s) r paid) :
    ∀ r paid, Recorded s' r paid → Book (Crash.acceptedBets s') r paid := by
  intro r paid hrec
  rw [h.acceptedBets]
  exact hs r paid (h.recorded r paid hrec)

theorem rows (h : Quietly s s') (hs : Rows s) : Rows s' := by
  have hkeys : rowKeys s'.db = rowKeys s.db := congrArg Prod.fst h.readings
  constructor
  · rw [hkeys]
    exact hs.ids
  · rw [hkeys]
    exact hs.keys
  · rw [hkeys, h.calls]
    exact hs.sound
  · rw [hkeys, h.calls]
    exact hs.complete

theorem accounts (h : Quietly s s') (hs : Accounts s) : Accounts s' := by
  have hreadings := h.readings
  simp only [Crash.readings, Prod.mk.injEq] at hreadings
  exact hs.of_eq h.calls hreadings.2.2 hreadings.2.1 h.busted

/-- Only memory changes. -/
theorem of_memory (hcalls : s'.calls = s.calls) (hdb : s'.db = s.db)
    (hrecorded : ∀ r paid, Recorded s' r paid → Recorded s r paid) : Quietly s s' where
  calls := hcalls
  readings := by rw [hdb]
  busted := by simp [hdb]
  recorded := hrecorded

/-- Only the database changes, off the stakes. -/
theorem of_write {db' : Db} (hreadings : Crash.readings db' = Crash.readings s.db)
    (hbusted : ∀ r, Busted db' r ↔ Busted s.db r) : Quietly s { s with db := db' } where
  calls := rfl
  readings := hreadings
  busted := hbusted
  recorded := fun _ _ h => h

theorem of_aside {db' : Db} (h : Aside s.db db') : Quietly s { s with db := db' } := by
  refine of_write (readings_eq ?_ h.bets ?_) ?_
  · simp only [rowKeys, h.rows]
  · funext r u
    simp only [stakeNet, h.ledger]
  · simp [Busted, h.rounds]

end Quietly

/-- The round of an engine changes, and its stakes do not. -/
theorem recorded_assign {i : Inst} {round round' : Round} (hheld : s.held (.engine i) = some round)
    (hid : round'.id = round.id) (hpaid : livePaid round'.bets = livePaid round.bets)
    {r : RoundId} {paid : List (UserId × Nat)}
    (h : Recorded (s.setHeld (.engine i) (some round')) r paid) : Recorded s r paid := by
  rcases h with ⟨q, round'', hq, hr, hp⟩ | hsettle
  · simp only [State.setHeld, Function.update_apply] at hq
    split at hq
    · cases hq
      exact .inl ⟨_, round, hheld, by rw [← hid, hr], by rw [← hpaid, hp]⟩
    · exact .inl ⟨q, round'', hq, hr, hp⟩
  · exact .inr hsettle

theorem livePaid_cashOut (bets : List LiveBet) (userId : UserId) (portion payout : Nat) (m : Rat) :
    livePaid (bets.map fun b => if b.userId = userId then b.cashOut portion payout m else b) =
      livePaid bets := by
  simp only [livePaid, List.map_map]
  refine List.map_congr_left ?_
  intro b _
  simp only [Function.comp_apply]
  split
  · rfl
  · rfl

theorem persistCashOut_readings (co : CashOut) (db : Db) :
    readings (persistCashOut co db) = readings db := by
  refine readings_eq ?_ rfl rfl
  simp only [rowKeys, persistCashOut, List.map_map]
  refine List.map_congr_left ?_
  intro b _
  simp only [Function.comp_apply]
  split
  · rfl
  · rfl

/-- The write of `running` to a row that is not terminal. -/
theorem writeRunning_busted {r : RoundId} {db : Db} (hopen : ¬ Busted db r) (q : RoundId) :
    Busted (writeRunning r db) q ↔ Busted db q := by
  rcases writeRunning_cases r db with heq | ⟨_, hrow, heq⟩
  · rw [heq]
  · by_cases hq : q = r
    · subst hq
      simp [heq, Busted, hrow] at hopen ⊢
      exact hopen
    · simp [heq, Busted, hq]

theorem writeRunning_readings (r : RoundId) (db : Db) :
    readings (writeRunning r db) = readings db := by
  rcases writeRunning_cases r db with heq | ⟨_, -, heq⟩
  · rw [heq]
  · rw [heq]
    exact readings_eq rfl rfl rfl

/-! ## A call that moves on -/

section Move

variable {c : EntryId} {p : Placing} {phase : BetPhase}

theorem move_calls (s : State) (c : EntryId) (p : Placing) (phase : BetPhase) (c' : EntryId) :
    (s.move c p phase).calls c' =
      if c' = c then some { p with phase := phase } else s.calls c' := by
  simp only [State.move, State.setCall, Function.update_apply]

/-- Neither phase is `accepted`. -/
theorem move_acceptedBets (hcall : s.calls c = some p) (hp : p.phase ≠ .accepted)
    (hphase : phase ≠ .accepted) : acceptedBets (s.move c p phase) = acceptedBets s := by
  ext call
  constructor
  · rintro ⟨c', p', hc', haccepted, rfl⟩
    rw [move_calls] at hc'
    split at hc'
    · cases hc'
      exact absurd haccepted hphase
    · exact ⟨c', p', hc', haccepted, rfl⟩
  · rintro ⟨c', p', hc', haccepted, rfl⟩
    refine ⟨c', p', ?_, haccepted, rfl⟩
    rw [move_calls, if_neg]
    · exact hc'
    · rintro rfl
      rw [hcall] at hc'
      cases hc'
      exact hp haccepted

/-- The row stays, or there was none and is none. -/
theorem Rows.move (hs : Rows s) (hcall : s.calls c = some p)
    (hdebited : p.phase.debited = true → phase.debited = true)
    (hrow : phase.hasRow = true → p.phase.hasRow = true) : Rows (s.move c p phase) where
  ids := hs.ids
  keys := hs.keys
  sound := by
    intro k hk
    obtain ⟨p', hc', hp', hkey⟩ := hs.sound k hk
    rw [move_calls]
    split
    · rename_i heq
      rw [heq, hcall] at hc'
      cases hc'
      exact ⟨_, rfl, hdebited hp', hkey⟩
    · exact ⟨p', hc', hp', hkey⟩
  complete := by
    intro c' p' hc' hp'
    rw [move_calls] at hc'
    split at hc'
    · rename_i heq
      cases hc'
      rw [heq]
      exact hs.complete c p hcall (hrow hp')
    · exact hs.complete c' p' hc' hp'

theorem move_free (hcall : s.calls c = some p) (hholds : phase.holds = p.phase.holds)
    {r : RoundId} {u : UserId} : Free (s.move c p phase) r u ↔ Free s r u := by
  constructor
  · intro hfree c' p' hc' hr hu
    by_cases heq : c' = c
    · subst heq
      rw [hcall] at hc'
      cases hc'
      rw [← hholds]
      exact hfree c' { p with phase := phase } (by rw [move_calls, if_pos rfl]) hr hu
    · exact hfree c' p' (by rw [move_calls, if_neg heq, hc']) hr hu
  · intro hfree c' p' hc' hr hu
    rw [move_calls] at hc'
    split at hc'
    · cases hc'
      show phase.holds = false
      rw [hholds]
      exact hfree c p hcall hr hu
    · exact hfree c' p' hc' hr hu

/-- The call keeps its stake, or has none; when it stops waiting on a
terminal round, its stake is settled. -/
theorem Accounts.move (hs : Accounts s) (hcall : s.calls c = some p)
    (hholds : phase.holds = p.phase.holds)
    (hwaits : p.waits = true → ({ p with phase := phase } : Placing).waits = false →
      Busted s.db p.call.roundId → betAmounts s.db p.call.roundId p.call.userId ≠ []) :
    Accounts (s.move c p phase) where
  net := by
    intro c' p' hc' hp'
    rw [move_calls] at hc'
    split at hc'
    · cases hc'
      exact hs.net c p hcall (by rw [← hholds]; exact hp')
    · exact hs.net c' p' hc' hp'
  free := by
    intro r u hfree
    exact hs.free r u ((move_free hcall hholds).mp hfree)
  unsettled := hs.unsettled
  settled := by
    intro c' p' hc' hp' hbusted
    rw [move_calls] at hc'
    split at hc'
    · cases hc'
      rcases hs.settled c p hcall (by rw [← hholds]; exact hp') hbusted with
        hsettled | ⟨hnone, hwait⟩
      · exact .inl hsettled
      · cases hstill : ({ p with phase := phase } : Placing).waits with
        | true => exact .inr ⟨hnone, rfl⟩
        | false => exact absurd hnone (hwaits hwait hstill hbusted)
    · exact hs.settled c' p' hc' hp' hbusted

theorem Reads.of_calls (hs : Reads s) (hrecoveries : ∀ k rc, s'.recoveries k = some rc →
      s.recoveries k = some rc)
    (hcalls : ∀ c p, s.calls c = some p → ∃ p', s'.calls c = some p' ∧ p'.call = p.call) :
    Reads s' := by
  intro k rc hrc
  obtain ⟨hnodup, hrows⟩ := hs k rc (hrecoveries k rc hrc)
  refine ⟨hnodup, ?_⟩
  intro b hb
  obtain ⟨hround, p, hc, hkey⟩ := hrows b hb
  obtain ⟨p', hc', hcall⟩ := hcalls b.id p hc
  refine ⟨hround, p', hc', ?_⟩
  rw [hkey, Placing.rowKey, Placing.rowKey, hcall]

theorem move_keeps_calls (hcall : s.calls c = some p) (c' : EntryId) (p' : Placing)
    (hc' : s.calls c' = some p') :
    ∃ p'', (s.move c p phase).calls c' = some p'' ∧ p''.call = p'.call := by
  rw [move_calls]
  split
  · rename_i heq
    rw [heq, hcall] at hc'
    cases hc'
    exact ⟨_, rfl, rfl⟩
  · exact ⟨p', hc', rfl⟩

end Move

/-! ## Orderly runs -/

/-- The steps that the accounting rests on, and what each needs:

* the engine, when it decides, does not have its window open on a round that
  is terminal, or the stake has been settled with it;
* a refund finds its stake unsettled, and on a terminal round it goes through;
* a live settle that can claim its round is on the round that went bust, and
  no bet on it is left with a failed refund;
* a recovery that can claim its round has read the rows of exactly those
  stakes that are not refunded;
* a process does not stop between the debit and the refund of a bet on a
  terminal round;
* `running` is not written over a terminal status. -/
def Orderly (s : State) : Event → Prop
  | .decide c => ∀ p round, s.calls c = some p → s.held (.engine p.inst) = some round →
      round.id = p.call.roundId → round.isOpen = true → s.draining p.inst = false →
      Busted s.db round.id → betAmounts s.db p.call.roundId p.call.userId ≠ []
  | .refund c failAt => ∀ p, s.calls c = some p →
      betAmounts s.db p.call.roundId p.call.userId = [] ∧
      (Busted s.db p.call.roundId →
        failAt = none ∧ ∃ user, s.db.users p.call.userId = some user)
  | .settle k _ _ _ => ∀ st round, s.settles k = some st →
      s.held (.engine st.inst) = some round → ¬ Busted s.db round.id →
      round.id = st.roundId ∧
        ∀ c p, s.calls c = some p → p.phase = .unpaid → p.call.roundId ≠ round.id
  | .recover k _ _ => ∀ rc, s.recoveries k = some rc → ¬ Busted s.db rc.round.id →
      ∀ c p, s.calls c = some p → p.call.roundId = rc.round.id →
        ((∃ b ∈ rc.bets, b.id = c) ↔ p.phase.holds = true)
  | .kill i => ∀ c p, s.calls c = some p → p.inst = i → p.waits = true →
      Busted s.db p.call.roundId → betAmounts s.db p.call.roundId p.call.userId ≠ []
  | .writeRunning _ r written => written = true → ¬ Busted s.db r
  | _ => True

theorem Inv.quiet (hs : Inv s) (hplaces : Places s') (hq : Quietly s s')
    (hrecoveries : ∀ k rc, s'.recoveries k = some rc → s.recoveries k = some rc) : Inv s' where
  places := hplaces
  books := hq.books hs.books
  rows := hq.rows hs.rows
  reads := hs.reads.of_calls hrecoveries fun c p hc => ⟨p, by rw [hq.calls, hc], rfl⟩
  accounts := hq.accounts hs.accounts

/-! ## Rounds and calls that are new -/

theorem createRound_busted {created : Created} {beaconRound : Option Int} {db : Db}
    (hfresh : db.crashRounds created.id = none) (q : RoundId) :
    Busted (createRound created beaconRound db) q ↔ Busted db q := by
  by_cases hq : q = created.id
  · subst hq
    simp [Busted, createRound, hfresh]
  · simp [Busted, createRound, hq]

theorem Inv.create (hs : Inv s) {i : Inst} {k : Nat} {created : Created} {openedAt : Time}
    {beaconRound : Option Int} (h : stepCreate s i k created openedAt beaconRound = some s') :
    Inv s' := by
  have hplaces : Places s' := hs.places.create h
  obtain ⟨hfresh, -, rfl⟩ := create_ok h
  have hwrite : Quietly s { s with db := createRound created beaconRound s.db } :=
    .of_write (readings_eq rfl rfl rfl) (createRound_busted hfresh)
  have hrows := hwrite.rows hs.rows
  have haccounts := hwrite.accounts hs.accounts
  refine ⟨hplaces, ?_, ⟨hrows.ids, hrows.keys, hrows.sound, hrows.complete⟩, hs.reads,
    ⟨haccounts.net, haccounts.free, haccounts.unsettled, haccounts.settled⟩⟩
  rintro r paid (⟨q, round, hq, hr, hp⟩ | hsettle)
  · simp only [State.setHeld, Function.update_apply] at hq
    split at hq
    · -- the new round: no bet can have been accepted into it
      cases hq
      subst hr hp
      refine ⟨List.nodup_nil, by simp [Created.round, livePaid], ?_⟩
      rintro _ ⟨c, p, hc, -, rfl⟩ hr
      obtain ⟨_, hrow⟩ := hs.places.called c p hc
      rw [hr] at hrow
      exact absurd (hfresh.symm.trans hrow) (by simp)
    · exact hs.books r paid (.inl ⟨q, round, hq, hr, hp⟩)
  · exact hs.books r paid (.inr hsettle)

theorem Inv.begin (hs : Inv s) {c : EntryId} {i : Inst} {call : BetCall}
    (h : stepBegin s c i call = some s') : Inv s' := by
  have hplaces : Places s' := hs.places.begin h
  obtain ⟨hnone, -, rfl⟩ := begin_ok h
  have hcalls : ∀ c' p', (s.setCall c ⟨i, call, .captured, true⟩).calls c' = some p' →
      p'.phase = .captured ∨ s.calls c' = some p' := by
    intro c' p' hc'
    simp only [State.setCall, Function.update_apply] at hc'
    split at hc'
    · cases hc'
      exact .inl rfl
    · exact .inr hc'
  have hold : ∀ c' p', s.calls c' = some p' →
      (s.setCall c ⟨i, call, .captured, true⟩).calls c' = some p' := by
    intro c' p' hc'
    simp only [State.setCall, Function.update_apply]
    split
    · rename_i heq
      rw [heq, hnone] at hc'
      cases hc'
    · exact hc'
  have haccepted : acceptedBets (s.setCall c ⟨i, call, .captured, true⟩) = acceptedBets s := by
    ext b
    constructor
    · rintro ⟨c', p', hc', hp', rfl⟩
      rcases hcalls c' p' hc' with hcaptured | hc'
      · rw [hcaptured] at hp'
        cases hp'
      · exact ⟨c', p', hc', hp', rfl⟩
    · rintro ⟨c', p', hc', hp', rfl⟩
      exact ⟨c', p', hold c' p' hc', hp', rfl⟩
  refine ⟨hplaces, ?_, ?_, ?_, ?_⟩
  · intro r paid hrec
    rw [haccepted]
    exact hs.books r paid hrec
  · refine ⟨hs.rows.ids, hs.rows.keys, ?_, ?_⟩
    · intro k hk
      obtain ⟨p', hc', hp', hkey⟩ := hs.rows.sound k hk
      exact ⟨p', hold _ p' hc', hp', hkey⟩
    · intro c' p' hc' hp'
      rcases hcalls c' p' hc' with hcaptured | hc'
      · rw [hcaptured] at hp'
        cases hp'
      · exact hs.rows.complete c' p' hc' hp'
  · exact hs.reads.of_calls (fun _ _ h => h) fun c' p' hc' => ⟨p', hold c' p' hc', rfl⟩
  · refine ⟨?_, ?_, hs.accounts.unsettled, ?_⟩
    · intro c' p' hc' hp'
      rcases hcalls c' p' hc' with hcaptured | hc'
      · rw [hcaptured] at hp'
        cases hp'
      · exact hs.accounts.net c' p' hc' hp'
    · intro r u hfree
      exact hs.accounts.free r u fun c' p' hc' => hfree c' p' (hold c' p' hc')
    · intro c' p' hc' hp' hbusted
      rcases hcalls c' p' hc' with hcaptured | hc'
      · rw [hcaptured] at hp'
        cases hp'
      · exact hs.accounts.settled c' p' hc' hp' hbusted

/-! ## The debit -/

/-- A stake, or the refund of one, counts where it belongs. -/
theorem netOf_stake {p : Posting} {r : RoundId} {u : UserId} (hplace : p.refType = "CrashRound")
    (hround : p.refId = some r) (huser : p.userId = u)
    (hreason : p.reason = "crash_bet" ∨ p.reason = "refund") (r' : RoundId) (u' : UserId) :
    netOf r' u' [p] = if r = r' ∧ u = u' then p.delta else 0 := by
  by_cases h : r = r' ∧ u = u'
  · obtain ⟨rfl, rfl⟩ := h
    simp [netOf, isStake, hplace, hround, huser, hreason]
  · rw [if_neg h]
    have hnot : isStake r' u' p = false := by
      simp only [isStake, hplace, hround, huser, Bool.and_eq_false_iff, beq_eq_false_iff_ne]
      by_cases hu : u = u'
      · have hr : r ≠ r' := fun hr => h ⟨hr, hu⟩
        simp [hr]
      · simp [hu]
    simp [netOf, hnot]

/-- A user without a row on the round has no stake on it. -/
theorem Rows.free_of_fresh (hs : Rows s) {r : RoundId} {u : UserId}
    (hfresh : ∀ b ∈ s.db.crashBets, ¬ (b.roundId = r ∧ b.userId = u)) : Free s r u := by
  intro c p hc hr hu
  cases hholds : p.phase.holds with
  | false => rfl
  | true =>
    obtain ⟨b, hb, hkey⟩ := List.mem_map.mp
      (hs.complete c p hc (BetPhase.hasRow_of_holds hholds))
    have hround : b.roundId = p.call.roundId := congrArg RowKey.roundId hkey
    have huser : b.userId = p.call.userId := congrArg RowKey.userId hkey
    exact absurd ⟨hround.trans hr, huser.trans hu⟩ (hfresh b hb)

theorem busted_of_rounds {db db' : Db} (h : db'.crashRounds = db.crashRounds) (r : RoundId) :
    Busted db' r ↔ Busted db r := by
  simp [Busted, h]

theorem betAmounts_of_bets {db db' : Db} (h : db'.bets = db.bets) (r : RoundId) (u : UserId) :
    betAmounts db' r u = betAmounts db r u := by
  simp only [betAmounts, h]

section Debit

variable {c : EntryId} {p : Placing} {db' : Db}

theorem Rows.debited (hs : Rows s) (h : Debited p.call c s.db db') :
    Rows { s.move c p .committed with db := db' } := by
  have hkeys : rowKeys db' = p.rowKey c :: rowKeys s.db := by
    simp only [rowKeys, h.rows, List.map_cons]
    rfl
  have hfresh : ∀ k ∈ rowKeys s.db, k.id ≠ c ∧
      ¬ (k.roundId = p.call.roundId ∧ k.userId = p.call.userId) := by
    intro k hk
    obtain ⟨b, hb, rfl⟩ := List.mem_map.mp hk
    exact h.fresh b hb
  refine ⟨?_, ?_, ?_, ?_⟩
  · show ((rowKeys db').map RowKey.id).Nodup
    rw [hkeys, List.map_cons, List.nodup_cons]
    refine ⟨?_, hs.ids⟩
    intro hmem
    obtain ⟨k, hk, heq⟩ := List.mem_map.mp hmem
    exact (hfresh k hk).1 heq
  · show ((rowKeys db').map fun k => (k.roundId, k.userId)).Nodup
    rw [hkeys, List.map_cons, List.nodup_cons]
    refine ⟨?_, hs.keys⟩
    intro hmem
    obtain ⟨k, hk, heq⟩ := List.mem_map.mp hmem
    exact (hfresh k hk).2 (Prod.mk.inj heq)
  · show ∀ k ∈ rowKeys db', _
    rw [hkeys]
    intro k hk
    show ∃ p', (s.move c p .committed).calls k.id = some p' ∧ _
    rw [move_calls]
    rcases List.mem_cons.mp hk with rfl | hk
    · exact ⟨_, if_pos rfl, rfl, rfl⟩
    · rw [if_neg (hfresh k hk).1]
      exact hs.sound k hk
  · show ∀ c' p', (s.move c p .committed).calls c' = some p' → _ → _ ∈ rowKeys db'
    rw [hkeys]
    intro c' p' hc' hp'
    rw [move_calls] at hc'
    split at hc'
    · rename_i heq
      cases hc'
      rw [heq]
      exact List.mem_cons_self
    · exact List.mem_cons_of_mem _ (hs.complete c' p' hc' hp')

/-- The new stake is the only one of the user on the round. -/
theorem Accounts.debited (hs : Accounts s) (hrows : Rows s) (halive : p.alive = true)
    (hcall : s.calls c = some p) (h : Debited p.call c s.db db') : Accounts { s.move c p .committed with db := db' } := by
  have hfree : Free s p.call.roundId p.call.userId :=
    hrows.free_of_fresh fun b hb => (h.fresh b hb).2
  obtain ⟨hnet₀, hnone₀⟩ := hs.free _ _ hfree
  have hnet : ∀ r u, stakeNet db' r u =
      (if p.call.roundId = r ∧ p.call.userId = u then -(p.call.amountLamports : Int) else 0) +
        stakeNet s.db r u := by
    intro r u
    rw [stakeNet_posts h.posts]
    rw [netOf_stake rfl rfl rfl (.inl rfl)]
    rfl
  have hother : ∀ c' p', s.calls c' = some p' → p'.phase.holds = true →
      ¬ (p.call.roundId = p'.call.roundId ∧ p.call.userId = p'.call.userId) := by
    rintro c' p' hc' hp' ⟨hr, hu⟩
    rw [hfree c' p' hc' hr.symm hu.symm] at hp'
    cases hp'
  refine ⟨?_, ?_, ?_, ?_⟩
  · intro c' p' hc' hp'
    show stakeNet db' _ _ = _
    rw [hnet]
    replace hc' : (s.move c p .committed).calls c' = some p' := hc'
    rw [move_calls] at hc'
    split at hc'
    · cases hc'
      rw [if_pos ⟨rfl, rfl⟩, hnet₀]
      simp
    · rw [if_neg (hother c' p' hc' hp'), hs.net c' p' hc' hp']
      simp
  · intro r u hfree'
    show stakeNet db' r u = 0 ∧ betAmounts db' r u = []
    have hne : ¬ (p.call.roundId = r ∧ p.call.userId = u) := by
      rintro ⟨hr, hu⟩
      have hholds := hfree' c { p with phase := .committed }
        (by show (s.move c p .committed).calls c = _; rw [move_calls, if_pos rfl]) hr hu
      cases hholds
    have hfreeOld : Free s r u := by
      intro c' p' hc' hr hu
      by_cases heq : c' = c
      · rw [heq, hcall] at hc'
        cases hc'
        exact absurd ⟨hr, hu⟩ hne
      · refine hfree' c' p' ?_ hr hu
        show (s.move c p .committed).calls c' = _
        rw [move_calls, if_neg heq, hc']
    obtain ⟨hnetOld, hamountsOld⟩ := hs.free r u hfreeOld
    rw [hnet, if_neg hne, hnetOld, betAmounts_of_bets h.bets]
    exact ⟨rfl, hamountsOld⟩
  · intro r u hopen
    show betAmounts db' r u = []
    rw [betAmounts_of_bets h.bets]
    exact hs.unsettled r u fun hb => hopen ((busted_of_rounds h.rounds r).mpr hb)
  · intro c' p' hc' hp' hbusted
    show betAmounts db' _ _ = _ ∨ betAmounts db' _ _ = _ ∧ _
    rw [betAmounts_of_bets h.bets]
    replace hc' : (s.move c p .committed).calls c' = some p' := hc'
    rw [move_calls] at hc'
    split at hc'
    · cases hc'
      exact .inr ⟨hnone₀, by simp [Placing.waits, halive]⟩
    · exact hs.settled c' p' hc' hp' ((busted_of_rounds h.rounds _).mp hbusted)

end Debit

theorem Inv.commit (hs : Inv s) {c : EntryId} {failAt : Option (Nat × TxError)}
    (hplaces : Places s') (h : stepCommit s c failAt = some s') : Inv s' := by
  obtain ⟨p, hcall, halive, hphase, rfl | ⟨_, hdebited, rfl⟩⟩ := commit_ok h
  · refine ⟨hplaces, ?_, ?_, ?_, ?_⟩
    · intro r paid hrec
      rw [move_acceptedBets hcall (by simp [hphase]) (by simp)]
      exact hs.books r paid hrec
    · exact hs.rows.move hcall (by simp [hphase, BetPhase.debited]) (by simp [BetPhase.hasRow])
    · exact hs.reads.of_calls (fun _ _ h => h) (move_keeps_calls hcall)
    · exact hs.accounts.move hcall (by rw [hphase]; rfl) (by simp [Placing.waits, hphase])
  · refine ⟨hplaces, ?_, hs.rows.debited hdebited, ?_,
      hs.accounts.debited hs.rows halive hcall hdebited⟩
    · intro r paid hrec
      show Book (acceptedBets (s.move c p .committed)) r paid
      rw [move_acceptedBets hcall (by simp [hphase]) (by simp)]
      exact hs.books r paid hrec
    · exact hs.reads.of_calls (fun _ _ h => h) (move_keeps_calls hcall)

/-! ## The decision of the engine -/

section Decide

variable {c : EntryId} {p : Placing}

/-- A call whose stake waits moves on, and the stake is not accepted. -/
theorem Inv.refuse (hs : Inv s) {phase : BetPhase} (hcall : s.calls c = some p)
    (hp : p.phase = .committed ∨ p.phase = .rejected)
    (hphase : phase = .rejected ∨ phase = .unpaid)
    (hwaits : phase = .unpaid → Busted s.db p.call.roundId →
      betAmounts s.db p.call.roundId p.call.userId ≠ [])
    (hplaces : Places (s.move c p phase)) : Inv (s.move c p phase) := by
  have hholds : p.phase.holds = true := by
    rcases hp with hp | hp
    · rw [hp]; rfl
    · rw [hp]; rfl
  have hholds' : phase.holds = true := by
    rcases hphase with hphase | hphase
    · rw [hphase]; rfl
    · rw [hphase]; rfl
  have hrow' : phase.hasRow = true := BetPhase.hasRow_of_holds hholds'
  refine ⟨hplaces, ?_, ?_, ?_, ?_⟩
  · intro r paid hrec
    rw [move_acceptedBets hcall]
    · exact hs.books r paid hrec
    · rcases hp with hp | hp <;> simp [hp]
    · rcases hphase with hphase | hphase <;> simp [hphase]
  · exact hs.rows.move hcall (fun _ => BetPhase.debited_of_hasRow hrow')
      fun _ => BetPhase.hasRow_of_holds hholds
  · exact hs.reads.of_calls (fun _ _ h => h) (move_keeps_calls hcall)
  · refine hs.accounts.move hcall (by rw [hholds, hholds']) ?_
    intro hwait hstop hbusted
    rcases hphase with hphase | hphase
    · -- a refused call still waits
      simp only [Placing.waits, Bool.and_eq_true] at hwait
      simp [Placing.waits, hphase, hwait.1] at hstop
    · exact hwaits hphase hbusted

/-- The accepted stakes after an acceptance. -/
theorem accept_acceptedBets (hcall : s.calls c = some p) :
    acceptedBets (s.move c p .accepted) = insert p.call (acceptedBets s) := by
  ext call
  constructor
  · rintro ⟨c', p', hc', haccepted, rfl⟩
    rw [move_calls] at hc'
    split at hc'
    · cases hc'
      exact .inl rfl
    · exact .inr ⟨c', p', hc', haccepted, rfl⟩
  · rintro (rfl | ⟨c', p', hc', haccepted, rfl⟩)
    · exact ⟨c, { p with phase := .accepted }, by rw [move_calls, if_pos rfl], rfl, rfl⟩
    · by_cases heq : c' = c
      · subst heq
        rw [hcall] at hc'
        cases hc'
        exact ⟨c', { p with phase := .accepted }, by rw [move_calls, if_pos rfl], rfl, rfl⟩
      · exact ⟨c', p', by rw [move_calls, if_neg heq, hc'], haccepted, rfl⟩

/-- A bet on another round. -/
theorem Book.other {accepted : Set BetCall} {r : RoundId} {paid : List (UserId × Nat)}
    (h : Book accepted r paid) {call : BetCall} (hr : call.roundId ≠ r) :
    Book (insert call accepted) r paid where
  nodup := h.nodup
  sound := by
    intro x hx
    obtain ⟨b, hb, hrest⟩ := h.sound x hx
    exact ⟨b, .inr hb, hrest⟩
  complete := by
    rintro b (rfl | hb) hround
    · exact absurd hround hr
    · exact h.complete b hb hround

/-- A bet on this round, by a user without one. -/
theorem Book.add {accepted : Set BetCall} {r : RoundId} {paid : List (UserId × Nat)}
    (h : Book accepted r paid) {call : BetCall} (hr : call.roundId = r)
    (hnew : call.userId ∉ paid.map (·.1)) :
    Book (insert call accepted) r (paid ++ [(call.userId, call.amountLamports)]) where
  nodup := by
    rw [List.map_append, List.nodup_append]
    refine ⟨h.nodup, List.nodup_singleton _, ?_⟩
    intro u hu u' hu' heq
    rw [List.map_singleton, List.mem_singleton] at hu'
    rw [heq, hu'] at hu
    exact hnew hu
  sound := by
    intro x hx
    rcases List.mem_append.mp hx with hx | hx
    · obtain ⟨b, hb, hrest⟩ := h.sound x hx
      exact ⟨b, .inr hb, hrest⟩
    · rw [List.mem_singleton.mp hx]
      exact ⟨call, .inl rfl, hr, rfl, rfl⟩
  complete := by
    rintro b (rfl | hb) hround
    · exact List.mem_append_right _ (List.mem_singleton.mpr rfl)
    · exact List.mem_append_left _ (h.complete b hb hround)

theorem not_mem_livePaid {round : Round} {userId : UserId} (h : round.has userId = false) :
    userId ∉ (livePaid round.bets).map (·.1) := by
  intro hmem
  simp only [livePaid, List.map_map, List.mem_map, Function.comp_apply] at hmem
  obtain ⟨b, hb, rfl⟩ := hmem
  simp only [Round.has, List.any_eq_false, beq_iff_eq] at h
  exact h b hb rfl

end Decide

theorem Inv.decide (hs : Inv s) {c : EntryId} (hok : Orderly s (.decide c)) (hplaces : Places s')
    (h : stepDecide cfg s c = some s') : Inv s' := by
  obtain ⟨p, round, hcall, _, hphase, hheld, rfl | ⟨_, hplace, rfl⟩⟩ := decide_ok h
  · exact hs.refuse hcall (.inl hphase) (.inl rfl) (by simp) hplaces
  · obtain ⟨hdrain, hopen, hid, hhas, exposure, -, rfl⟩ := placeBet_ok hplace
    have hround : p.call.roundId = round.id := hid _ rfl
    have hcall' : (s.setHeld (.engine p.inst) (some { round with
        bets := round.bets ++ [p.call.params.live], exposure := exposure })).calls c = some p :=
      hcall
    refine ⟨hplaces, ?_, ?_, ?_, ?_⟩
    · intro r paid hrec
      rw [accept_acceptedBets hcall']
      rcases hrec with ⟨q, round'', hq, hr, hpaid⟩ | ⟨k, st, hst, hr, hpaid⟩
      · simp only [State.move, State.setCall, State.setHeld, Function.update_apply] at hq
        split at hq
        · cases hq
          subst hr hpaid
          have hbook := hs.books round.id _ (.inl ⟨_, round, hheld, rfl, rfl⟩)
          have hadd := hbook.add hround (not_mem_livePaid hhas)
          have hpaid : livePaid (round.bets ++ [p.call.params.live]) =
              livePaid round.bets ++ [(p.call.userId, p.call.amountLamports)] := by
            simp [livePaid, BetParams.live, BetCall.params]
          rw [← hpaid] at hadd
          exact hadd
        · -- another place holds another round
          rename_i hne
          refine (hs.books r paid (.inl ⟨q, round'', hq, hr, hpaid⟩)).other ?_
          intro heq
          exact hne (hs.places.distinct q _ round'' round hq hheld (hr.trans (heq.symm.trans hround)))
      · -- a settle has captured a round that is closed
        refine (hs.books r paid (.inr ⟨k, st, hst, hr, hpaid⟩)).other ?_
        intro heq
        have hclosed := (hs.places.settling k st hst).2 _ round hheld
          (hround.symm.trans (heq.trans hr.symm))
        rw [hopen] at hclosed
        cases hclosed
    · have hmoved : Rows (s.move c p .accepted) :=
        hs.rows.move hcall (fun _ => rfl) (fun _ => by rw [hphase]; rfl)
      exact ⟨hmoved.ids, hmoved.keys, hmoved.sound, hmoved.complete⟩
    · exact hs.reads.of_calls (fun _ _ h => h) (move_keeps_calls hcall)
    · have hmoved : Accounts (s.move c p .accepted) := by
        refine hs.accounts.move hcall (by rw [hphase]; rfl) ?_
        intro _ _ hbusted
        rw [hround] at hbusted
        exact hok p round hcall hheld hround.symm hopen hdrain hbusted
      exact ⟨hmoved.net, hmoved.free, hmoved.unsettled, hmoved.settled⟩

end Scadium.Games.Crash
